import WebServer.Proofs.Engine.Effects

/-! # Telling the application

An application that watches is told every notice that the journal gains, in the same order, and nothing else: as long as
nobody exchanges it, its state is the outcome of just these notices. -/

namespace WebServer

variable {τ κ σ : Type}

/-- What an entry makes of the state of an application that watches. -/
def Entry.tell (watch : Handle → Notice → σ → σ) : Entry κ → σ → σ
  | .notice h n, app => watch h n app
  | _, app => app

/-- Between `e` and `e'` the application went on watching, and was told just the notices that the journal gained. -/
structure Tells (watch : Handle → Notice → σ → σ) (e e' : Engine τ κ σ) : Prop where
  watcher : e'.watcher = some watch
  app : ∃ gained, e'.journal = gained ++ e.journal ∧ e'.app = gained.foldr (Entry.tell watch) e.app

variable {watch : Handle → Notice → σ → σ} {e e' e'' : Engine τ κ σ}

namespace Tells

theorem refl (hw : e.watcher = some watch) : Tells watch e e :=
  ⟨hw, [], rfl, rfl⟩

theorem trans (ht : Tells watch e e') (ht' : Tells watch e' e'') : Tells watch e e'' := by
  obtain ⟨gained, hj, happ⟩ := ht.app
  obtain ⟨gained', hj', happ'⟩ := ht'.app
  refine ⟨ht'.watcher, gained' ++ gained, ?_, ?_⟩
  · rw [hj', hj, List.append_assoc]
  · rw [happ', happ, List.foldr_append]

/-- An application that watches from the start is what all notices in the journal make of it. -/
theorem app_eq (ht : Tells watch e e') (hnil : e.journal = []) :
    e'.app = e'.journal.foldr (Entry.tell watch) e.app := by
  obtain ⟨gained, hj, happ⟩ := ht.app
  rw [hnil, List.append_nil] at hj
  rw [hj, happ]

/-- What is not about notices the application is not told. -/
theorem of_silent (gained : List (Entry κ)) (hw : e'.watcher = some watch) (hj : e'.journal = gained ++ e.journal)
    (happ : e'.app = e.app) (hg : ∀ entry ∈ gained, ∀ app, entry.tell watch app = app) : Tells watch e e' := by
  refine ⟨hw, gained, hj, ?_⟩
  rw [happ]
  clear hj
  induction gained with
  | nil => rfl
  | cons entry gained ih =>
      rw [List.forall_mem_cons] at hg
      rw [List.foldr_cons, hg.1]
      exact ih hg.2

end Tells

theorem Entry.IsNote.tell {entry : Entry κ} (hn : entry.IsNote) (app : σ) : entry.tell watch app = app := by
  cases entry with
  | request | text | binary => rfl
  | accepted | queued | wrote | lost | closed | notice => exact hn.elim

theorem Entry.Offers.tell {h : Handle} {conn : κ} {entry : Entry κ} (ho : entry.Offers h conn) (app : σ) :
    entry.tell watch app = app := by
  cases ho <;> rfl

namespace Engine

variable [Transport τ κ]

theorem flush_app (e : Engine τ κ σ) (h : Handle) : (e.flush h).app = e.app := by
  rw [flush]
  split <;> rfl

theorem flush_tells (hw : e.watcher = some watch) (h : Handle) : Tells watch e (e.flush h) := by
  cases hs : e.session? h with
  | none =>
      rw [flush_of_none hs]
      exact .refl hw
  | some t =>
      obtain ⟨offers, hj, hoffers⟩ := flush_grown hs
      exact .of_silent offers ((flush_watcher e h).trans hw) hj (flush_app e h) fun entry hm => (hoffers entry hm).tell

variable [DecidableEq κ] {env : Surroundings τ}

theorem Move.tells (hm : Move env e e') (ha : ¬env.arranges) (hw : e.watcher = some watch) : Tells watch e e' := by
  cases hm with
  | @accepted conn h registry => exact .of_silent [.accepted h conn] hw rfl rfl (by simp [Entry.tell])
  | @queued h t data => exact .of_silent [.queued h data] hw rfl rfl (by simp [Entry.tell])
  | @hungUp h t => exact .of_silent [.closed h t.conn] hw rfl rfl (by simp [Entry.tell])
  | @noted entry hn => exact .of_silent [entry] hw rfl rfl (by simp [hn.tell])
  | @told h n watch' hw' =>
      obtain rfl := Option.some.inj (hw'.symm.trans hw)
      exact ⟨hw, [.notice h n], rfl, rfl⟩
  | flushed h => exact flush_tells hw h
  | arranged _ _ hj _ _ harranges =>
      obtain ⟨happ, hwatcher⟩ := harranges.resolve_left ha
      exact .of_silent [] (hwatcher.trans hw) hj happ (by simp)
  | adjusted | received | took | upgraded | acknowledged | removed | listened | stoppedListening | drifted | advanced =>
      exact .of_silent [] hw rfl rfl (by simp)

/-- Where the application is not exchanged, it is told what is entered. -/
theorem Moves.tells (hm : Moves env e e') (ha : ¬env.arranges) (hw : e.watcher = some watch) : Tells watch e e' :=
  hm.keep (I := fun m => Tells watch e m) (fun _ _ hmove ht => ht.trans (hmove.tells ha ht.watcher)) (.refl hw)

end Engine
end WebServer
