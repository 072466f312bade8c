import WebServer.Proofs.Server.Moments

/-! # Runs without reports

A program that leaves it to the host to report what has become of the transport, and all that is done while it runs,
are chains of strides. -/

namespace WebServer

variable {τ κ σ : Type}

/-- Programs that report nothing of the transport. -/
def Permit.withoutReports (τ κ σ : Type) : Permit τ κ σ where
  call c := ¬Engine.IsReport c
  reenter := True

/-- A deed that reports nothing of the transport. -/
def Deed.WithoutReports (e : Engine τ κ σ) (d : Deed τ κ σ) : Prop :=
  d.Keeps (fun _ c => ¬Engine.IsReport c) (fun _ _ => True) e

variable [DecidableEq κ] [Transport τ κ]

namespace Engine

theorem conclude_strides {env : Surroundings τ} (e : Engine τ κ σ) (h : Handle) (reply : Reply) :
    Strides env e (Server.conclude h reply { engine := e }).engine := by
  rw [Server.conclude]
  dsimp only
  split
  · exact .refl
  · split
    · split
      · exact .refl
      · exact replyAndClose_strides _ _ _
    · split
      · exact flush_strides _ _
      · exact beginClose_strides _ _

end Engine

theorem Deed.strides {e : Engine τ κ σ} {d : Deed τ κ σ} (hd : d.WithoutReports e) :
    Engine.Strides {} e (d.act e) := by
  cases d with
  | call c => exact Engine.perform_strides e c hd (Engine.allows_any e c)
  | received h data => exact Engine.gather_strides trivial e h data
  | took h => exact Engine.next_strides trivial trivial e h
  | handed h m =>
      cases m with
      | request | text | binary => exact Engine.noted_strides e trivial
      | wait | again => exact .refl
  | concluded h reply => exact Engine.conclude_strides e h reply

theorem Engine.after_strides {e : Engine τ κ σ} {ds : List (Deed τ κ σ)} (hds : Deed.All Deed.WithoutReports e ds) :
    Strides {} e (e.after ds) := by
  induction ds generalizing e with
  | nil => exact .refl
  | cons d ds ih => exact (Deed.strides hds.1).trans (ih hds.2)

namespace Server

theorem run_leads {program : Program τ κ σ} (hp : program.Within (.withoutReports τ κ σ)) {s : Server τ κ σ}
    (hs : s.handlers.Within (.withoutReports τ κ σ)) : Leads {} (.withoutReports τ κ σ) s (s.run program).2 :=
  runBy_leads (fun e c _ => Engine.allows_any e c)
    (fun _ => receiveWithin_leads trivial trivial trivial (fun e c _ => Engine.allows_any e c) receiveDepth)
    program s hp hs

/-- A program without reports runs in strides, whatever the handlers do meanwhile. -/
theorem run_strides {program : Program τ κ σ} (hp : program.Within (.withoutReports τ κ σ)) {s : Server τ κ σ}
    (hs : s.handlers.Within (.withoutReports τ κ σ)) (w : s.engine.registry.WellFormed) :
    Engine.Strides {} s.engine (s.run program).2.engine := by
  have hreports : Reports (fun (_ : Engine τ κ σ) (_ : Handle) => True) {} := fun _ _ _ _ _ _ _ _ => trivial
  have hlists : Lists (fun _ c => ¬Engine.IsReport c) (fun _ _ => True) (.withoutReports τ κ σ)
      (runDeedsBy (receiveWithin receiveDepth) (receiveDeedsWithin receiveDepth)) :=
    runDeedsBy_all (fun _ _ hc => hc) (fun e c _ => Engine.allows_any e c) (receiveWithin_engine receiveDepth)
      (fun _ => receiveWithin_leads trivial trivial trivial (fun e c _ => Engine.allows_any e c) receiveDepth)
      fun conn data _ hs w => receiveDeedsWithin_all (fun _ _ hc => hc) hreports (fun e c _ => Engine.allows_any e c)
        (fun _ => ⟨trivial, trivial, trivial⟩) receiveDepth conn data hs w
  have hengine : (s.run program).2.engine = s.engine.after _ :=
    runBy_engine (receiveWithin_engine receiveDepth) program s
  rw [hengine]
  exact Engine.after_strides (hlists program s hp hs w)

end Server
end WebServer
