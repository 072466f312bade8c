import WebServer.Engine.Closing

/-! # Idle sessions

A poll pushes the output of a session, ends it when it was idle for too long or takes too long to close, and
finishes a close. -/

namespace WebServer

/-- What a poll does about a session. -/
inductive IdleAction where
  | keep
  | sendClose
  | forceClose
deriving DecidableEq, Repr

namespace IdleAction

def name : IdleAction → String
  | .keep => "none"
  | .sendClose => "send_close"
  | .forceClose => "force_close"

/-- Whether a time is longer than a limit. -/
def exceeds (elapsed : Nat) (limit : Option Nat) : Bool :=
  limit.any fun l => decide (l < elapsed)

/-- What a poll at time `now` does about a session. -/
def decide {κ : Type} (s : Session κ) (config : Config) (now : Nat) : IdleAction :=
  let elapsed := now - s.lastActivity
  if s.isEnding then
    if exceeds elapsed config.closeWaitLimit then .forceClose else .keep
  else
    match s.mode with
    | .http => if exceeds elapsed config.httpIdleLimit then .forceClose else .keep
    | .webSocket => if exceeds elapsed config.webSocketIdleLimit then .sendClose else .keep

end IdleAction

namespace Engine

variable {τ κ σ : Type} [DecidableEq κ] [Transport τ κ]

def pollSession (e : Engine τ κ σ) (h : Handle) : Engine τ κ σ :=
  let e := e.flush h
  match e.session? h with
  | none => e
  | some s =>
    match IdleAction.decide s e.config e.now with
    | .keep => e.finishClose h
    | .sendClose => ((e.notify h .idle).sendClose h .goingAway "idle").finishClose h
    | .forceClose =>
      let e := if s.isEnding then e else e.notify h .idle
      e.forceClose h

def pollConn (e : Engine τ κ σ) (conn : κ) : Engine τ κ σ :=
  match e.registry.handleOf? conn with
  | none => e
  | some h => e.pollSession h

def poll (e : Engine τ κ σ) : Engine τ κ σ :=
  e.registry.liveHandles.foldl pollSession e

end Engine
end WebServer
