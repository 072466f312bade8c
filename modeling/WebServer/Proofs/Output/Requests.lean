import WebServer.Proofs.Engine.Moves

/-! # Requests

A transport may keep a log of what it is asked to do about its connections. The journal of an engine shows the same
writes and closes in the same order. -/

namespace WebServer

variable {τ κ σ : Type}

namespace Transport

/-- Something that a transport is asked to do about a connection. -/
inductive Request (κ : Type) where
  | write (conn : κ) (chunk : Bytes)
  | close (conn : κ)
deriving DecidableEq, Repr

def Request.conn : Request κ → κ
  | .write conn _ | .close conn => conn

/-- A log, newest request first, of everything that a transport is asked to do about its connections. -/
structure IsLog [Transport τ κ] (log : τ → List (Request κ)) : Prop where
  write : ∀ t conn chunk, log (Transport.write t conn chunk).2 = .write conn chunk :: log t
  close : ∀ t conn, log (Transport.close t conn).2 = .close conn :: log t
  listen : ∀ t port, log (Transport.listen t port).2 = log t
  stopListening : ∀ t, log (Transport.stopListening t) = log t

/-- A transport with a log. -/
structure Logged (τ κ : Type) where
  transport : τ
  log : List (Request κ) := []

instance [Transport τ κ] : Transport (Logged τ κ) κ where
  capacity t conn := capacity t.transport conn
  write t conn chunk :=
    let (outcome, transport) := write t.transport conn chunk
    (outcome, { transport, log := .write conn chunk :: t.log })
  close t conn :=
    let (outcome, transport) := close t.transport conn
    (outcome, { transport, log := .close conn :: t.log })
  listen t port :=
    let (outcome, transport) := listen t.transport port
    (outcome, { t with transport })
  stopListening t := { t with transport := stopListening t.transport }

theorem Logged.isLog [Transport τ κ] : IsLog (Logged.log : Logged τ κ → List (Request κ)) :=
  ⟨fun _ _ _ => rfl, fun _ _ => rfl, fun _ _ => rfl, fun _ => rfl⟩

end Transport

open Transport (IsLog Request)

/-- What an entry shows that a transport was asked to do. -/
def Entry.request? : Entry κ → Option (Request κ)
  | .wrote _ conn chunk _ => some (.write conn chunk)
  | .closed _ conn => some (.close conn)
  | _ => none

/-- While a journal grew, a transport was asked to do what the journal shows, and nothing else. -/
def Accounts (log : τ → List (Request κ)) (transport transport' : τ) (journal journal' : List (Entry κ)) : Prop :=
  ∃ gained, journal' = gained ++ journal ∧ log transport' = gained.filterMap Entry.request? ++ log transport

namespace Accounts

variable {log : τ → List (Request κ)} {transport transport' transport'' : τ}
  {journal journal' journal'' : List (Entry κ)}

theorem of_log_eq (hl : log transport' = log transport) : Accounts log transport transport' journal journal :=
  ⟨[], rfl, hl⟩

theorem refl (log : τ → List (Request κ)) (transport : τ) (journal : List (Entry κ)) :
    Accounts log transport transport journal journal :=
  of_log_eq rfl

theorem trans (a : Accounts log transport transport' journal journal')
    (a' : Accounts log transport' transport'' journal' journal'') :
    Accounts log transport transport'' journal journal'' := by
  obtain ⟨gained, rfl, hl⟩ := a
  obtain ⟨gained', rfl, hl'⟩ := a'
  exact ⟨gained' ++ gained, (List.append_assoc ..).symm, by rw [hl', hl, List.filterMap_append, List.append_assoc]⟩

/-- A log that was empty together with the journal shows what the journal shows. -/
theorem log_eq (a : Accounts log transport transport' [] journal') (hl : log transport = []) :
    log transport' = journal'.filterMap Entry.request? := by
  obtain ⟨gained, rfl, hl'⟩ := a
  rw [hl', hl, List.append_nil, List.append_nil]

/-- One more entry, and what it shows. -/
theorem cons (a : Accounts log transport transport' journal journal') {entry : Entry κ}
    (hl : log transport'' = entry.request?.toList ++ log transport') :
    Accounts log transport transport'' journal (entry :: journal') := by
  refine a.trans ⟨[entry], rfl, hl.trans ?_⟩
  cases hr : entry.request? <;> simp [hr]

end Accounts

section

variable [Transport τ κ] {log : τ → List (Request κ)} (hlog : IsLog log)

namespace Outflow

variable {transport : τ} {journal : List (Entry κ)} {h : Handle} {conn : κ} {o : Outflow τ κ}

omit [Transport τ κ] in
theorem takeBack_accounts (a : Accounts log transport o.transport journal o.journal) (rest : Bytes) :
    Accounts log transport (o.takeBack h rest).transport journal (o.takeBack h rest).journal := by
  rw [takeBack]
  split
  · exact a
  · exact a.cons rfl

include hlog

theorem offer_accounts (a : Accounts log transport o.transport journal o.journal) (segment : Nat) :
    Accounts log transport (o.offer h conn segment).2.transport journal (o.offer h conn segment).2.journal := by
  rw [offer]
  split
  · exact a
  · rename_i chunk queue _
    have hwrite : Accounts log transport (Transport.write o.transport conn chunk).2 journal
        (.wrote h conn chunk (Transport.write o.transport conn chunk).1 :: o.journal) :=
      a.cons (hlog.write o.transport conn chunk)
    dsimp only
    split
    · split
      · exact hwrite
      · exact takeBack_accounts hwrite _
    · exact takeBack_accounts hwrite _

theorem offerLoop_accounts (a : Accounts log transport o.transport journal o.journal) (segment fuel : Nat) :
    Accounts log transport (o.offerLoop h conn segment fuel).transport journal
      (o.offerLoop h conn segment fuel).journal :=
  offerLoop_keep (I := fun o => Accounts log transport o.transport journal o.journal)
    (fun _ a => offer_accounts hlog a segment) fuel a

end Outflow

namespace Engine

variable [DecidableEq κ] {env : Surroundings τ} {e e' : Engine τ κ σ}
include hlog

/-- Whatever a move asks the transport to do, it enters in the journal. -/
theorem Move.accounts (hd : ∀ t t', env.drift t t' → log t' = log t) (hm : Move env e e') :
    Accounts log e.transport e'.transport e.journal e'.journal := by
  cases hm with
  | accepted | queued => exact (Accounts.refl ..).cons rfl
  | adjusted | received | took | upgraded | acknowledged | removed | advanced => exact .refl ..
  | flushed h =>
      rw [flush]
      split
      · exact .refl ..
      · exact Outflow.offerLoop_accounts hlog (.refl ..) _ _
  | @hungUp h t hs => exact (Accounts.refl ..).cons (hlog.close e.transport t.conn)
  | @noted entry hn => exact (Accounts.refl ..).cons (by cases entry <;> first | rfl | exact hn.elim)
  | told hw => exact (Accounts.refl ..).cons rfl
  | listened port => exact .of_log_eq (hlog.listen _ port)
  | stoppedListening => exact .of_log_eq (hlog.stopListening _)
  | drifted hdrift => exact .of_log_eq (hd _ _ hdrift)
  | arranged _ ht hj =>
      rw [ht, hj]
      exact .refl ..

theorem Moves.accounts (hd : ∀ t t', env.drift t t' → log t' = log t) (hm : Moves env e e') :
    Accounts log e.transport e'.transport e.journal e'.journal :=
  hm.keep (I := fun m => Accounts log e.transport m.transport e.journal m.journal)
    (fun _ _ hmove a => a.trans (hmove.accounts hlog hd)) (.refl ..)

end Engine

end

end WebServer
