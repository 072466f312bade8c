import WebServer.Proofs.Http.Framing
import WebServer.Proofs.Server.Broadcasting
import WebServer.StaticFiles

/-! # Serving files

A file is sent in two buffers, the head and the content. Offering the first one to the transport leaves the session open,
whatever the transport makes of it, so that the second one is not refused: both are queued, or nothing is. -/

namespace WebServer

variable {τ κ σ : Type}

/-! ## Buffers behind each other -/

namespace OutboundQueue

theorem SameContents.append {q q' : OutboundQueue} (h : q.SameContents q') (data : Bytes) :
    (q.append data).SameContents (q'.append data) := by
  refine ⟨⟨?_, ?_⟩, h.released⟩
  · rw [OutboundQueue.append, OutboundQueue.append, List.map_append, List.map_append, h.layout.data]
  · rw [OutboundQueue.append, OutboundQueue.append, List.map_append, List.map_append, h.layout.acknowledged]

/-- The queue when buffers were put behind the others, one after the other. -/
def appendAll (q : OutboundQueue) (datas : List Bytes) : OutboundQueue :=
  datas.foldl append q

theorem appendAll_append (q : OutboundQueue) (datas more : List Bytes) :
    q.appendAll (datas ++ more) = (q.appendAll datas).appendAll more :=
  List.foldl_append

theorem SameContents.appendAll {q q' : OutboundQueue} (h : q.SameContents q') (datas : List Bytes) :
    (q.appendAll datas).SameContents (q'.appendAll datas) := by
  induction datas generalizing q q' with
  | nil => exact h
  | cons data datas ih => exact ih (h.append data)

end OutboundQueue

namespace Engine

/-- Between `e` and `e'` the session `t` was given buffers behind everything that it had queued, and nothing else happened
but that its output was offered to its connection. -/
structure AppendsAll [Transport τ κ] (datas : List Bytes) (h : Handle) (t : Session κ) (e e' : Engine τ κ σ) : Prop where
  session : ∃ queue, (t.outbound.appendAll datas).SameContents queue ∧ e'.session? h = some { t with outbound := queue }
  queued : queuedOn h e'.journal = queuedOn h e.journal ++ datas
  others : ∀ g, g ≠ h → Untouched g e e'
  written : Transport.Written t.conn e.transport e'.transport
  rest : ∃ sessions transport journal, e' = { e with registry := { e.registry with sessions }, transport, journal }

variable [Transport τ κ] {e m e' : Engine τ κ σ} {h : Handle} {t u : Session κ} {data : Bytes} {datas more : List Bytes}

theorem Flushes.appendsAll (hf : SendsTo e h t data m) : AppendsAll [data] h t e m := by
  obtain ⟨f, hreg⟩ := hf.registry
  refine ⟨hf.session, ?_, fun g hg => hf.untouched hg, hf.transport,
    ((e.record (.queued h data)).registry.update h f).sessions, m.transport, m.journal, hf.rest.trans ?_⟩
  · obtain ⟨offers, hjournal, hoffers⟩ := hf.journal
    rw [hjournal, queuedOn_append_silent fun entry hm => (hoffers entry hm).silent]
    exact queuedOn_queued h data e.journal
  · rw [hreg]
    rfl

theorem AppendsAll.append (hd : AppendsAll datas h t e m) (hu : m.session? h = some u)
    (hm : AppendsAll more h u m e') : AppendsAll (datas ++ more) h t e e' := by
  obtain ⟨queue, hsame, hqueue⟩ := hd.session
  obtain rfl := Option.some.inj (hqueue.symm.trans hu)
  obtain ⟨queue', hsame', hqueue'⟩ := hm.session
  obtain ⟨_, _, _, rfl⟩ := hd.rest
  obtain ⟨sessions, transport, journal, rfl⟩ := hm.rest
  refine ⟨⟨queue', ?_, hqueue'⟩, ?_, fun g hg => (hd.others g hg).trans (hm.others g hg), hd.written.trans hm.written,
    sessions, transport, journal, rfl⟩
  · rw [OutboundQueue.appendAll_append]
    exact (hsame.appendAll more).trans hsame'
  · rw [hm.queued, hd.queued, List.append_assoc]

variable [DecidableEq κ]

/-- An open session takes every buffer that is not empty. -/
theorem send_of_open (ht : e.session? h = some t) (ho : t.acceptsOutput = true) (hd : data ≠ []) :
    ∃ m, e.send h data = (.ok (), m) ∧ AppendsAll [data] h t e m := by
  have hsend := send_sends e h data
  generalize e.send h data = result at hsend ⊢
  cases hsend with
  | notFound hnone => exact absurd (ht.symm.trans hnone) (Option.some_ne_none t)
  | closing hu hc =>
      obtain rfl := Option.some.inj (ht.symm.trans hu)
      exact absurd (ho.symm.trans hc) (by decide)
  | empty _ _ hnil => exact absurd hnil hd
  | @queued u m hu _ _ hf =>
      obtain rfl := Option.some.inj (ht.symm.trans hu)
      exact ⟨m, rfl, hf.appendsAll⟩

end Engine

/-! ## The answer with a file -/

namespace StaticFile

open Http.Response (Splits lengthLine lengths message)

/-- What is sent in front of the content. -/
def head (file : StaticFile) : Bytes :=
  Text.utf8 (Http.Response.headText "200 OK" file.contentType file.body.length)

/-- The buffers in which a file is sent; an empty one is not queued. -/
def buffers (file : StaticFile) : List Bytes :=
  file.head :: if file.body = [] then [] else [file.body]

/-- One block of lines, the last of which tells the length of the content, and behind it the content. If no line ends in
the content type, the block is the head of the message, and tells no other length. -/
structure Answers (file : StaticFile) (datas : List Bytes) : Prop where
  pieces : ∃ fields, datas = message (fields ++ [lengthLine file.body.length]) [] ::
    if file.body = [] then [] else [file.body]
  whole : datas.flatten = Http.Response.build "200 OK" file.contentType file.body
  head : Text.OneLine file.contentType.toList → ∃ head, Splits datas.flatten head file.body ∧
    lengths head = [⟨"Content-Length", toString file.body.length⟩]

variable (file : StaticFile)

theorem head_eq : file.head = message (Http.Response.responseLines "200 OK" file.contentType file.body.length) [] :=
  Http.Response.utf8_headText "200 OK" file.contentType file.body.length

theorem head_ne_nil : file.head ≠ [] := by
  simp [head_eq, message, Bytes.blankLine]

theorem flatten_buffers : file.buffers.flatten = Http.Response.build "200 OK" file.contentType file.body := by
  rw [buffers, List.flatten_cons, Http.Response.build, head]
  split <;> simp [*]

theorem answers_buffers : file.Answers file.buffers := by
  refine ⟨⟨["HTTP/1.1 ".toList ++ "200 OK".toList, "Content-Type: ".toList ++ file.contentType.toList], ?_⟩,
    file.flatten_buffers, fun hline => ?_⟩
  · rw [buffers, head_eq]
    rfl
  · have hlines := Http.Response.headLines_twoLines (by decide : Text.OneLine "200 OK".toList) hline
    refine ⟨_, ?_, Http.Response.lengths_relength hlines file.body.length⟩
    rw [flatten_buffers, Http.Response.build_eq, ← Http.Response.relength_twoLines]
    exact (hlines.relength _).splits file.body

end StaticFile

namespace Engine

variable [DecidableEq κ] [Transport τ κ]

/-- What a request for a file on the session `h` comes to. -/
inductive Serves (e : Engine τ κ σ) (files : StaticFiles) (h : Handle) (r : Http.Request) :
    Except ServerError Bool × Engine τ κ σ → Prop where
  | noFile (hf : files.get? r.path = none) : Serves e files h r (.ok false, e)
  | notFound {file : StaticFile} (hf : files.get? r.path = some file) (hs : e.session? h = none) :
      Serves e files h r (.error (.handleNotFound h), e)
  | closing {file : StaticFile} {t : Session κ} (hf : files.get? r.path = some file) (hs : e.session? h = some t)
      (hc : t.acceptsOutput = false) : Serves e files h r (.error (.sessionClosing h), e)
  | served {file : StaticFile} {t : Session κ} {e' : Engine τ κ σ} (hf : files.get? r.path = some file)
      (hs : e.session? h = some t) (ho : t.acceptsOutput = true) (ha : AppendsAll file.buffers h t e e') :
      Serves e files h r (.ok true, e')

theorem serve_serves (e : Engine τ κ σ) (files : StaticFiles) (h : Handle) (r : Http.Request) :
    Serves e files h r (e.serve files h r) := by
  rw [serve]
  cases hf : files.get? r.path with
  | none => exact .noFile hf
  | some file =>
      have hhead : Text.utf8 (Http.Response.headText "200 OK" file.contentType file.body.length) = file.head := rfl
      have hsend := send_sends e h file.head
      dsimp only
      rw [hhead]
      generalize e.send h file.head = result at hsend ⊢
      cases hsend with
      | notFound hs => exact .notFound hf hs
      | closing hs hc => exact .closing hf hs hc
      | empty _ _ hnil => exact absurd hnil file.head_ne_nil
      | @queued t m hs ho _ hq =>
          have hfirst := hq.appendsAll
          obtain ⟨queue, -, hu⟩ := hq.session
          dsimp only
          by_cases hbody : file.body = []
          · have hbuffers : file.buffers = [file.head] := by rw [StaticFile.buffers, if_pos hbody]
            rw [if_pos (by simpa using hbody)]
            exact .served hf hs ho (hbuffers ▸ hfirst)
          · -- The session is still open when the content is sent.
            obtain ⟨e', hsecond, hcontent⟩ := send_of_open hu ho hbody
            have hbuffers : file.buffers = [file.head] ++ [file.body] := by
              rw [StaticFile.buffers, if_neg hbody, List.singleton_append]
            rw [if_neg (by simpa using hbody), hsecond]
            exact .served hf hs ho (hbuffers ▸ hfirst.append hu hcontent)

/-- The answers to a request for a file. -/
structure AnswersFile (e : Engine τ κ σ) (files : StaticFiles) (h : Handle) (r : Http.Request)
    (answer : Except ServerError Bool) : Prop where
  noFile : answer = .ok false ↔ files.get? r.path = none
  notFound : answer = .error (.handleNotFound h) ↔ files.get? r.path ≠ none ∧ e.session? h = none
  closing : answer = .error (.sessionClosing h) ↔
    files.get? r.path ≠ none ∧ ∃ t, e.session? h = some t ∧ t.acceptsOutput = false
  served : answer = .ok true ↔ files.get? r.path ≠ none ∧ ∃ t, e.session? h = some t ∧ t.acceptsOutput = true

/-- A request for a file puts the whole answer behind everything that the session has queued, or changes nothing. -/
structure ServesWhole (e : Engine τ κ σ) (files : StaticFiles) (h : Handle) (r : Http.Request)
    (result : Except ServerError Bool × Engine τ κ σ) : Prop where
  answers : AnswersFile e files h r result.1
  served : result.1 = .ok true → ∃ file t datas, files.get? r.path = some file ∧ e.session? h = some t ∧
    file.Answers datas ∧ AppendsAll datas h t e result.2
  refused : result.1 ≠ .ok true → result.2 = e

/-- In every state of the session, its queue and its transport, and whatever the transport makes of the writes, a file
is sent with its head and its content, or nothing is sent at all. -/
theorem serve_servesWhole (e : Engine τ κ σ) (files : StaticFiles) (h : Handle) (r : Http.Request) :
    ServesWhole e files h r (e.serve files h r) := by
  have hserves := serve_serves e files h r
  generalize e.serve files h r = result at hserves
  cases hserves with
  | noFile hf => exact ⟨by constructor <;> simp [hf], nofun, fun _ => rfl⟩
  | notFound hf hs => exact ⟨by constructor <;> simp [hf, hs], nofun, fun _ => rfl⟩
  | closing hf hs hc => exact ⟨by constructor <;> simp [hf, hs, hc], nofun, fun _ => rfl⟩
  | @served file t e' hf hs ho ha =>
      exact ⟨by constructor <;> simp [hf, hs, ho], fun _ => ⟨file, t, file.buffers, hf, hs, file.answers_buffers, ha⟩,
        fun hne => absurd rfl hne⟩

end Engine

end WebServer
