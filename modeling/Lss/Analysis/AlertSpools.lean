import Lss.Library.Outbox
import Lss.Model.AlertSpool

/-!
# The alert spool as an outbox

Every alert that is accepted is mailed, waits in the spool or has been dropped with its text in
the log. What was mailed comes in the order of arrival as long as the numbers of the spool's files
have eight digits, and an id is noted only for an alert that was mailed. A digest that does not
show all the messages it takes out of the spool is left out of all this.
-/

set_option autoImplicit false

open scoped List

namespace Lss.Analysis.AlertSpools

open Lss.Library Lss.Library.Outbox Lss.Model.AlertSpool

/-! ## The files of the spool -/

theorem not_mem_decimal {c : Char} (hc : c.isDigit = false) (n : ℕ) : c ∉ decimal n := by
  intro hm
  have digit := Nat.isDigit_of_mem_toDigits (by decide) (by decide) hm
  rw [digit] at hc
  cases hc

/-- The name says the number. -/
theorem seq_eq_of_name_eq {f g : SpoolFile} (h : f.name = g.name) : f.seq = g.seq := by
  have padded (n : ℕ) : '-' ∉ Numerals.padded 8 n := fun hm =>
    absurd (Numerals.isDigit_padded _ hm) (by decide)
  have tail : '-' ∉ decimal f.named ++ ".msg".toList := by
    rw [List.mem_append, not_or]
    exact ⟨not_mem_decimal rfl f.named, by decide⟩
  unfold SpoolFile.name at h
  rw [List.append_assoc, List.append_assoc, List.cons_append, List.cons_append,
    List.append_cons_inj_of_notMem (padded f.seq) tail] at h
  exact Numerals.padded_injective 8 h.1

/-- With eight digits the names come in the order of the numbers. -/
theorem name_lt {f g : SpoolFile} (eight : g.seq < 10 ^ 8) (h : f.seq < g.seq) :
    f.name < g.name := by
  unfold SpoolFile.name
  rw [List.append_assoc, List.append_assoc]
  exact Numerals.padded_append_lt (by decide) eight h _ _

/-- With nine digits they do not. -/
example : (⟨10 ^ 8, 0, []⟩ : SpoolFile).name < (⟨10 ^ 8 - 1, 0, []⟩ : SpoolFile).name := by
  decide +kernel

theorem spoolFiles_perm (s : State) : spoolFiles s ~ s.spool := List.perm_insertionSort _ _

theorem spoolCount_eq (s : State) : spoolCount s = s.spool.length := (spoolFiles_perm s).length_eq

/-- The spool as it is listed when its numbers ascend. -/
theorem spoolFiles_eq {s : State} (ascending : s.spool.Pairwise (·.seq < ·.seq))
    (numbered : ∀ f ∈ s.spool, f.seq ≤ s.seq) (eight : s.seq < 10 ^ 8) :
    spoolFiles s = s.spool := by
  apply List.Pairwise.insertionSort_eq
  refine ascending.imp_of_mem ?_
  intro f g _ hg less
  exact (name_lt ((numbered g hg).trans_lt eight) less).le

/-- What a file that was just written says. -/
theorem mailText_file {e : Env} {severity text : Text} (plain : '\n' ∉ text) (seq named : ℕ) :
    (⟨seq, named, fileLines e severity text⟩ : SpoolFile).mailText = text := by
  unfold SpoolFile.mailText fileLines
  rw [List.splitOn_eq_singleton plain]
  rfl

theorem space_not_mem_idText (e : Env) : ' ' ∉ e.idText := by
  unfold Env.idText
  cases e.alertId with
  | none => decide
  | some id => exact not_mem_decimal rfl id

theorem meta_id {e : Env} {severity text : Text} (word : ' ' ∉ severity) (seq named : ℕ) :
    (⟨seq, named, fileLines e severity text⟩ : SpoolFile).meta "id".toList = e.idText := by
  have line : "ts=".toList ++ decimal e.stamped ++ " id=".toList ++ e.idText ++
      " severity=".toList ++ severity =
      [' '].intercalate ["ts=".toList ++ decimal e.stamped, "id=".toList ++ e.idText,
        "severity=".toList ++ severity] := by
    simp [List.intercalate]
  have words : ∀ w ∈ ["ts=".toList ++ decimal e.stamped, "id=".toList ++ e.idText,
      "severity=".toList ++ severity], ' ' ∉ w := by
    have stamped : ' ' ∉ decimal e.stamped := not_mem_decimal rfl e.stamped
    simp [stamped, space_not_mem_idText, word]
  unfold SpoolFile.meta fileLines
  dsimp only
  rw [line, List.getElem?_cons_zero, Option.getD_some,
    List.splitOn_intercalate ' ' words (List.cons_ne_nil _ _)]
  simp [List.dropPrefix?]

/-! ## Steps that only write to the log -/

/-- Nothing but the log, the calls over ssh and the mark of the last alert differs. -/
structure Noted (s t : State) : Prop where
  seq : t.seq = s.seq
  spool : t.spool = s.spool
  ids : t.ids = s.ids
  inbox : t.inbox = s.inbox
  unshown : t.unshown = s.unshown
  written : s.trimmed ++ s.log <+: t.trimmed ++ t.log

theorem Noted.refl (s : State) : Noted s s := ⟨rfl, rfl, rfl, rfl, rfl, List.prefix_refl _⟩

theorem Noted.trans {s t u : State} (h : Noted s t) (k : Noted t u) : Noted s u where
  seq := k.seq.trans h.seq
  spool := k.spool.trans h.spool
  ids := k.ids.trans h.ids
  inbox := k.inbox.trans h.inbox
  unshown := k.unshown.trans h.unshown
  written := h.written.trans k.written

theorem noted_log (text : Text) (s : State) : Noted s (log text s) := by
  refine ⟨rfl, rfl, rfl, rfl, rfl, ?_⟩
  unfold log
  rw [← List.append_assoc]
  exact List.prefix_append _ _

/-- What is cut off the log has been written. -/
theorem noted_trimLog (s : State) : Noted s (trimLog s) := by
  unfold trimLog
  split
  · refine ⟨rfl, rfl, rfl, rfl, rfl, ?_⟩
    dsimp only
    rw [List.append_assoc, List.take_append_drop]
  · exact Noted.refl s

theorem noted_callSeat (site : Site) (s : State) : Noted s (callSeat site s).2 := by
  have called : Noted s { s with calls := s.calls + 1 } :=
    ⟨rfl, rfl, rfl, rfl, rfl, List.prefix_refl _⟩
  unfold callSeat
  dsimp only
  split
  · exact called
  · exact called.trans (noted_log _ _)

theorem noted_sendBanner (site : Site) (dryRun : Bool) (s : State) :
    Noted s (sendBanner site dryRun s).2 := by
  unfold sendBanner
  split
  · exact noted_log _ _
  · exact noted_callSeat site s

theorem noted_bannerLeg (site : Site) (e : Env) (severity : Text) (mail : MailLeg) (s : State) :
    Noted s (bannerLeg site e severity mail s).2 := by
  unfold bannerLeg
  dsimp only
  have fallen : Noted s (if severity = "warn".toList ∧ mail ≠ .ok then
      log "detail=warn_falls_back_to_banner".toList s else s) := by
    split
    · exact noted_log _ _
    · exact Noted.refl s
  split
  · have sent := noted_sendBanner site e.dryRun (if severity = "warn".toList ∧ mail ≠ .ok then
      log "detail=warn_falls_back_to_banner".toList s else s)
    split
    all_goals
      rename_i h
      rw [h] at sent
      exact (fallen.trans sent).trans (noted_log _ _)
  · exact fallen

theorem noted_finish (severity : Text) (mail : MailLeg) (banner : BannerLeg) (s : State) :
    Noted s (finish severity mail banner s).2 := by
  unfold finish
  exact (noted_log _ s).trans (noted_trimLog _)

theorem noted_notConfigured (site : Site) (call : Invocation) (s : State) :
    Noted s (notConfigured site call s).2 := noted_log _ _

/-! ## Deliveries -/

/-- A mail got through to some target, or nothing but the log differs. -/
def Tried (body : Text) (s : State) (r : Except MailDetail Text × State) : Prop :=
  match r.1 with
  | .ok target => Noted { s with inbox := s.inbox ++ [⟨target, body⟩] } r.2
  | .error _ => Noted s r.2

theorem Tried.noted {body : Text} {s t : State} {r : Except MailDetail Text × State}
    (h : Noted s t) (tried : Tried body t r) : Tried body s r := by
  unfold Tried at *
  cases hr : r.1 with
  | ok target =>
      rw [hr] at tried
      dsimp only at tried ⊢
      have sent : Noted { s with inbox := s.inbox ++ [⟨target, body⟩] }
          { t with inbox := t.inbox ++ [⟨target, body⟩] } :=
        ⟨h.seq, h.spool, h.ids, by rw [h.inbox], h.unshown, h.written⟩
      exact sent.trans tried
  | error detail =>
      rw [hr] at tried
      exact h.trans tried

/-- A target that took the mail. -/
theorem tried_ok (site : Site) (body target note : Text) (s : State) :
    Tried body s (.ok target,
      if target = site.agent then { s with inbox := s.inbox ++ [⟨target, body⟩] }
      else log note { s with inbox := s.inbox ++ [⟨target, body⟩] }) := by
  unfold Tried
  dsimp only
  split
  · exact Noted.refl _
  · exact noted_log _ _

/-- At most one of the targets gets the mail. -/
theorem deliverTo_tried (site : Site) (body target : Text) (rest : List Text) (s : State) :
    Tried body s (deliverTo site body target rest s) := by
  induction rest generalizing target s with
  | nil =>
      unfold deliverTo
      refine Tried.noted (noted_callSeat site s) ?_
      generalize callSeat site s = called
      obtain ⟨answer, t⟩ := called
      dsimp only
      split
      · exact tried_ok site body target _ t
      · split
        · exact noted_log _ _
        · rename_i h
          cases h
        · exact Noted.refl _
  | cons next rest ih =>
      unfold deliverTo
      refine Tried.noted (noted_callSeat site s) ?_
      generalize callSeat site s = called
      obtain ⟨answer, t⟩ := called
      dsimp only
      split
      · exact tried_ok site body target _ t
      · split
        · exact noted_log _ _
        · rename_i h
          cases h
          exact ih next t
        · exact Noted.refl _

theorem deliverMail_tried (site : Site) (body : Text) (s : State) :
    Tried body s (deliverMail site false body s) := by
  unfold deliverMail
  rw [if_neg Bool.false_ne_true]
  exact deliverTo_tried site body site.agent site.fallback s

/-! ## Messages -/

/-- An alert that was accepted: its row, and its mail without the tag. -/
structure Message where
  id : Text
  text : Text
  deriving DecidableEq

/-- The message that a file of the spool holds. -/
def messageOf (site : Site) (f : SpoolFile) : Message :=
  ⟨f.meta "id".toList, stripTag site f.mailText⟩

/-- Those that wait in the spool. -/
def waiting (site : Site) (s : State) : List Message := s.spool.map (messageOf site)

/-- The message a call accepts: an alert of a real run at a site that is configured, unless it is
the same as the last one within 60 seconds. -/
def accepts (site : Site) (call : Invocation) (s : State) : Option Message :=
  let severity := (severityOf (orInfo call.severity)).1
  let message := oneLine call.env call.message
  if ¬site.configured ∨ call.flushes ∨ call.message = [] ∨ call.env.dryRun ∨
      duplicate (sumOf site severity message) call.env.now s then none
  else some ⟨call.env.idText, '[' :: severity ++ "] ".toList ++ message⟩

/-- The messages accepted in a run, in the order in which they came. -/
def accepted (site : Site) : State → List Invocation → List Message
  | _, [] => []
  | s, call :: calls => (accepts site call s).toList ++ accepted site (invoke site call s).2 calls

/-- An id that is noted: the row of an alert. -/
def isRow (id : Text) : Bool := id ≠ [] ∧ id ≠ ['-']

/-- The rows of some messages. -/
def rows (ms : List Message) : List Text := (ms.map (·.id)).filter isRow

theorem rows_append (ms ns : List Message) : rows (ms ++ ns) = rows ms ++ rows ns := by
  unfold rows
  rw [List.map_append, List.filter_append]

/-- What the agent and the log have of the messages that were accepted. -/
structure Books (site : Site) (accepted : List Message) (mailed : List (List Message))
    (dropped : List Message) (s : State) : Prop where
  mails : List.Forall₂ (fun (mail : Mail) ms => Carries mail.body (ms.map (·.text))) s.inbox mailed
  accounts : Accounts accepted mailed.flatten (waiting site s) dropped
  order : s.seq < 10 ^ 8 → InOrder accepted mailed.flatten (waiting site s)
  written : ∀ m ∈ dropped, ∃ line ∈ s.trimmed ++ s.log, m.text <:+: line
  marked : s.ids <+ rows mailed.flatten

/-- What holds of the state after any run: the files of the spool are numbered and hold one line,
and unless a digest left messages out, the books are right. -/
structure Kept (site : Site) (accepted : List Message) (s : State) : Prop where
  ascending : s.spool.Pairwise (·.seq < ·.seq)
  numbered : ∀ f ∈ s.spool, f.seq ≤ s.seq
  plain : ∀ f ∈ s.spool, '\n' ∉ f.mailText
  books : s.unshown = 0 → ∃ mailed dropped, Books site accepted mailed dropped s

section Steps
variable {site : Site} {accepted : List Message} {s t : State}

theorem kept_start : Kept site [] State.start where
  ascending := List.Pairwise.nil
  numbered := fun _ hf => absurd hf List.not_mem_nil
  plain := fun _ hf => absurd hf List.not_mem_nil
  books := fun _ => ⟨[], [], {
    mails := List.Forall₂.nil
    accounts := Accounts.nil
    order := fun _ => List.Sublist.refl _
    written := fun _ hm => absurd hm List.not_mem_nil
    marked := List.Sublist.refl _ }⟩

/-- What was written to the log is still there to be read, or was cut off it. -/
theorem written_mono (more : s.trimmed ++ s.log <+: t.trimmed ++ t.log) {text : Text}
    (h : ∃ line ∈ s.trimmed ++ s.log, text <:+: line) :
    ∃ line ∈ t.trimmed ++ t.log, text <:+: line := by
  obtain ⟨line, hline, part⟩ := h
  exact ⟨line, more.subset hline, part⟩

theorem Books.noted {mailed : List (List Message)} {dropped : List Message}
    (b : Books site accepted mailed dropped s) (n : Noted s t) :
    Books site accepted mailed dropped t where
  mails := by rw [n.inbox]; exact b.mails
  accounts := by unfold waiting; rw [n.spool]; exact b.accounts
  order := by unfold waiting; rw [n.spool, n.seq]; exact b.order
  written := fun m hm => written_mono n.written (b.written m hm)
  marked := by rw [n.ids]; exact b.marked

theorem Kept.noted (k : Kept site accepted s) (n : Noted s t) : Kept site accepted t where
  ascending := by rw [n.spool]; exact k.ascending
  numbered := by rw [n.spool, n.seq]; exact k.numbered
  plain := by rw [n.spool]; exact k.plain
  books := by
    intro none
    rw [n.unshown] at none
    obtain ⟨mailed, dropped, b⟩ := k.books none
    exact ⟨mailed, dropped, b.noted n⟩

/-- The files that stand in the spool have different names. -/
theorem Kept.names (k : Kept site accepted s) : s.spool.Pairwise (·.name ≠ ·.name) := by
  refine k.ascending.imp ?_
  intro f g less same
  have := seq_eq_of_name_eq same
  omega

/-! ### Taking files out -/

/-- The files of the spool, in the order in which they stand there while eight digits last. -/
structure Listed (s : State) (files : List SpoolFile) : Prop where
  all : s.spool ~ files
  order : s.seq < 10 ^ 8 → s.spool = files

theorem Kept.listed (k : Kept site accepted s) : Listed s (spoolFiles s) where
  all := (spoolFiles_perm s).symm
  order := fun eight => (spoolFiles_eq k.ascending k.numbered eight).symm

/-- A file that is removed from the front of a listing leaves the rest of it. -/
theorem filter_name {f : SpoolFile} {rest : List SpoolFile}
    (names : (f :: rest).Pairwise (·.name ≠ ·.name)) :
    (f :: rest).filter (fun g => decide (g.name ≠ f.name)) = rest := by
  have others : ∀ g ∈ rest, decide (g.name ≠ f.name) = true := fun g hg =>
    decide_eq_true (Ne.symm (List.rel_of_pairwise_cons names hg))
  rw [List.filter_cons_of_neg (by simp), List.filter_eq_self.mpr others]

theorem Listed.removed {f : SpoolFile} {rest : List SpoolFile} (listed : Listed s (f :: rest))
    (names : s.spool.Pairwise (·.name ≠ ·.name)) : Listed (removeFile f s) rest where
  all := by
    have left := listed.all.filter fun g => decide (g.name ≠ f.name)
    rw [filter_name ((listed.all.pairwise_iff fun h => Ne.symm h).mp names)] at left
    exact left
  order := by
    intro eight
    have same := listed.order eight
    rw [same] at names
    unfold removeFile
    dsimp only
    rw [same, filter_name names]

theorem markDelivered_eq (site : Site) (f : SpoolFile) (s : State) :
    markDelivered f s = { s with ids := s.ids ++ rows [messageOf site f] } := by
  have marks : rows [messageOf site f] =
      if isRow (f.meta "id".toList) then [f.meta "id".toList] else [] := by
    unfold rows messageOf
    rw [List.map_singleton, List.filter_singleton]
    cases isRow (f.meta "id".toList) <;> rfl
  unfold markDelivered
  dsimp only
  rw [marks]
  by_cases row : f.meta "id".toList = [] ∨ f.meta "id".toList = ['-']
  · rw [if_pos row, if_neg (by unfold isRow; simp; tauto), List.append_nil]
  · rw [if_neg row, if_pos (by unfold isRow; simp; tauto)]

/-- Some files were taken out of the spool and their rows noted. -/
structure Taken (site : Site) (files rest : List SpoolFile) (s t : State) : Prop where
  seq : t.seq = s.seq
  inbox : t.inbox = s.inbox
  unshown : t.unshown = s.unshown
  ids : t.ids = s.ids ++ rows (files.map (messageOf site))
  part : t.spool <+ s.spool
  listed : Listed t rest
  written : s.trimmed ++ s.log = t.trimmed ++ t.log

theorem taken_foldl {files rest : List SpoolFile} (listed : Listed s (files ++ rest))
    (names : s.spool.Pairwise (·.name ≠ ·.name)) :
    Taken site files rest s
      (files.foldl (fun s f => removeFile f (markDelivered f s)) s) := by
  induction files generalizing s with
  | nil =>
      refine ⟨rfl, rfl, rfl, ?_, List.Sublist.refl _, listed, rfl⟩
      exact (List.append_nil _).symm
  | cons f files ih =>
      rw [List.foldl_cons, markDelivered_eq site]
      have one : Listed (removeFile f { s with ids := s.ids ++ rows [messageOf site f] })
          (files ++ rest) :=
        Listed.removed ⟨listed.all, listed.order⟩ names
      have part : (removeFile f { s with ids := s.ids ++ rows [messageOf site f] }).spool <+
          s.spool := List.filter_sublist
      have more := ih one (names.sublist part)
      refine ⟨more.seq, more.inbox, more.unshown, ?_, more.part.trans part, more.listed,
        more.written⟩
      have both : rows ((f :: files).map (messageOf site)) =
          rows [messageOf site f] ++ rows (files.map (messageOf site)) := rows_append [_] _
      rw [more.ids, both, ← List.append_assoc]
      rfl

/-! ### What keeps the books -/

/-- One mail went out, with it some of the files. -/
structure Handed (site : Site) (body : Text) (files rest : List SpoolFile) (s t : State) :
    Prop where
  seq : t.seq = s.seq
  inbox : ∃ target, t.inbox = s.inbox ++ [⟨target, body⟩]
  unshown : t.unshown = s.unshown
  ids : t.ids = s.ids ++ rows (files.map (messageOf site))
  part : t.spool <+ s.spool
  listed : Listed t rest
  written : s.trimmed ++ s.log <+: t.trimmed ++ t.log

/-- The mail is delivered and its files are taken out. -/
theorem handed {body target : Text} {files rest : List SpoolFile} {u : State}
    (listed : Listed s (files ++ rest)) (names : s.spool.Pairwise (·.name ≠ ·.name))
    (sent : Noted { s with inbox := s.inbox ++ [⟨target, body⟩] } u) :
    Handed site body files rest s
      (files.foldl (fun s f => removeFile f (markDelivered f s)) u) := by
  have listed' : Listed u (files ++ rest) :=
    ⟨by rw [sent.spool]; exact listed.all, by rw [sent.spool, sent.seq]; exact listed.order⟩
  have taken : Taken site files rest u _ := taken_foldl listed' (by rw [sent.spool]; exact names)
  exact {
    seq := taken.seq.trans sent.seq
    inbox := ⟨target, taken.inbox.trans sent.inbox⟩
    unshown := taken.unshown.trans sent.unshown
    ids := by rw [taken.ids, sent.ids]
    part := by rw [← sent.spool]; exact taken.part
    listed := taken.listed
    written := by rw [← taken.written]; exact sent.written }

/-- A mail that shows all its messages but so many keeps the books when it shows them all. -/
theorem Kept.mailed {body : Text} {files rest : List SpoolFile} (k : Kept site accepted s)
    (listed : Listed s (files ++ rest)) (h : Handed site body files rest s t) (more : ℕ)
    (shows : more = 0 → Carries body (files.map fun f => (messageOf site f).text)) :
    Kept site accepted { t with unshown := t.unshown + more } where
  ascending := k.ascending.sublist h.part
  numbered := by
    show ∀ f ∈ t.spool, f.seq ≤ t.seq
    rw [h.seq]
    exact fun f hf => k.numbered f (h.part.subset hf)
  plain := fun f hf => k.plain f (h.part.subset hf)
  books := by
    intro none
    have none : t.unshown + more = 0 := none
    have carries := shows (by omega)
    obtain ⟨mailed, dropped, b⟩ := k.books (by rw [← h.unshown]; omega)
    obtain ⟨target, inbox⟩ := h.inbox
    have flat : (mailed ++ [files.map (messageOf site)]).flatten =
        mailed.flatten ++ files.map (messageOf site) := by
      rw [List.flatten_append, List.flatten_singleton]
    have taken : waiting site s ~ files.map (messageOf site) ++ rest.map (messageOf site) := by
      rw [← List.map_append]
      exact listed.all.map _
    have left : waiting site t ~ rest.map (messageOf site) := h.listed.all.map _
    refine ⟨mailed ++ [files.map (messageOf site)], dropped, ?_⟩
    exact {
      mails := by
        show List.Forall₂ _ t.inbox _
        rw [inbox]
        refine List.rel_append b.mails (List.Forall₂.cons ?_ List.Forall₂.nil)
        rw [List.map_map]
        exact carries
      accounts := by
        rw [flat]
        exact (b.accounts.mail taken).reorder left.symm
      order := by
        intro eight
        have eight : t.seq < 10 ^ 8 := eight
        have order := b.order (by rw [← h.seq]; exact eight)
        unfold waiting at order ⊢
        rw [listed.order (by rw [← h.seq]; exact eight), List.map_append] at order
        rw [flat, h.listed.order eight]
        exact order.mail
      written := fun m hm => written_mono h.written (b.written m hm)
      marked := by
        show t.ids <+ _
        rw [h.ids, flat, rows_append]
        exact b.marked.append (List.Sublist.refl _) }

/-- A message that is mailed at once, when nothing waits. -/
theorem Kept.sent {body target : Text} {m : Message} (k : Kept site accepted s)
    (empty : s.spool = []) (n : Noted { s with inbox := s.inbox ++ [⟨target, body⟩] } t)
    (part : m.text <:+: body) : Kept site (accepted ++ [m]) t := by
  have here : Kept site (accepted ++ [m]) { s with inbox := s.inbox ++ [⟨target, body⟩] } := {
    ascending := k.ascending
    numbered := k.numbered
    plain := k.plain
    books := by
      intro none
      obtain ⟨mailed, dropped, b⟩ := k.books none
      have nothing : waiting site s = [] := by
        unfold waiting
        rw [empty, List.map_nil]
      have flat : (mailed ++ [[m]]).flatten = mailed.flatten ++ [m] := by
        rw [List.flatten_append, List.flatten_singleton]
      refine ⟨mailed ++ [[m]], dropped, ?_⟩
      exact {
        mails := List.rel_append b.mails
          (List.Forall₂.cons (Carries.single part) List.Forall₂.nil)
        accounts := by
          have posted := b.accounts.post m
          rw [nothing, List.nil_append] at posted
          show Accounts _ _ (waiting site s) _
          rw [flat, nothing]
          exact posted.mail (List.Perm.refl _)
        order := by
          intro eight
          have posted := (b.order eight).post m
          have last : InOrder (accepted ++ [m]) mailed.flatten ([m] ++ []) := by
            rw [nothing, List.nil_append] at posted
            exact posted
          show InOrder _ _ (waiting site s)
          rw [flat, nothing]
          exact last.mail
        written := b.written
        marked := by
          rw [flat, rows_append]
          exact b.marked.trans (List.sublist_append_left _ _) } }
  exact here.noted n

/-- A message that gets a file with the next number. -/
theorem Kept.posted {f : SpoolFile} (k : Kept site accepted s) (next : f.seq = s.seq + 1)
    (plain : '\n' ∉ f.mailText) :
    Kept site (accepted ++ [messageOf site f])
      { s with seq := s.seq + 1, spool := Table.put SpoolFile.name s.spool f } := by
  have fresh : Table.put SpoolFile.name s.spool f = s.spool ++ [f] := by
    unfold Table.put
    rw [List.filter_eq_self.mpr]
    intro g hg
    apply decide_eq_true
    intro same
    have := k.numbered g hg
    have := seq_eq_of_name_eq same
    omega
  rw [fresh]
  exact {
    ascending := by
      rw [List.pairwise_append]
      refine ⟨k.ascending, List.pairwise_singleton _ _, ?_⟩
      intro g hg h hh
      have := k.numbered g hg
      rw [List.mem_singleton.mp hh]
      omega
    numbered := by
      intro g hg
      show g.seq ≤ s.seq + 1
      rcases List.mem_append.mp hg with old | new
      · have := k.numbered g old
        omega
      · rw [List.mem_singleton.mp new, next]
    plain := by
      intro g hg
      rcases List.mem_append.mp hg with old | new
      · exact k.plain g old
      · rw [List.mem_singleton.mp new]
        exact plain
    books := by
      intro none
      obtain ⟨mailed, dropped, b⟩ := k.books none
      have more : (s.spool ++ [f]).map (messageOf site) = waiting site s ++ [messageOf site f] :=
        List.map_append
      refine ⟨mailed, dropped, ?_⟩
      exact {
        mails := b.mails
        accounts := by
          unfold waiting
          dsimp only
          rw [more]
          exact b.accounts.post _
        order := by
          intro eight
          have eight : s.seq + 1 < 10 ^ 8 := eight
          unfold waiting
          dsimp only
          rw [more]
          exact (b.order (by omega)).post _
        written := b.written
        marked := b.marked } }

/-- The end of a text is read on one line of it. -/
theorem exists_line {p : Text} (plain : '\n' ∉ p) (front : Text) :
    ∃ line ∈ (front ++ p).splitOn '\n', p <:+: line := by
  induction front with
  | nil =>
      rw [List.nil_append, List.splitOn_eq_singleton plain]
      exact ⟨p, List.mem_singleton_self p, List.infix_refl p⟩
  | cons c front ih =>
      obtain ⟨line, hline, part⟩ := ih
      rw [List.cons_append, List.splitOn_cons_eq_if_modifyHead]
      split
      · exact ⟨line, List.mem_cons_of_mem _ hline, part⟩
      · cases hl : (front ++ p).splitOn '\n' with
        | nil => exact absurd hl (List.splitOn_ne_nil _ _)
        | cons first lines =>
            rw [hl] at hline
            rw [List.modifyHead_cons]
            cases hline with
            | head =>
                exact ⟨c :: line, List.mem_cons_self,
                  part.trans (List.suffix_cons c line).isInfix⟩
            | tail _ later => exact ⟨line, List.mem_cons_of_mem _ later, part⟩

/-- The tag in front of a mail is all that is left out of the message. -/
theorem stripTag_suffix (site : Site) (text : Text) : stripTag site text <:+ text := by
  unfold stripTag
  cases h : text.dropPrefix? (site.tag ++ [' ']) with
  | none => exact List.suffix_refl _
  | some rest =>
      obtain ⟨front, rfl, -⟩ := List.dropPrefix?_eq_some_iff.mp h
      exact List.suffix_append _ _

/-- A file is dropped after its mail was written to the log. -/
theorem Kept.dropped {f : SpoolFile} {rest : List SpoolFile} (k : Kept site accepted s)
    (listed : Listed s (f :: rest)) (max : ℤ) : Kept site accepted (dropFile max f s) := by
  unfold dropFile
  generalize hfront : "status=DROP channel=agent-mail detail=spool_full max=".toList ++
    (toString max).toList ++ " dropped=".toList ++ f.name ++ " text=".toList = front
  have noted := noted_log (front ++ f.mailText) s
  have hf : f ∈ s.spool := listed.all.mem_iff.mpr List.mem_cons_self
  have left : Listed (removeFile f (log (front ++ f.mailText) s)) rest :=
    Listed.removed ⟨listed.all, listed.order⟩ k.names
  have part : (removeFile f (log (front ++ f.mailText) s)).spool <+ s.spool := List.filter_sublist
  exact {
    ascending := k.ascending.sublist part
    numbered := fun g hg => k.numbered g (part.subset hg)
    plain := fun g hg => k.plain g (part.subset hg)
    books := by
      intro none
      obtain ⟨mailed, dropped, b⟩ := k.books none
      have taken : waiting site s ~ messageOf site f :: rest.map (messageOf site) :=
        listed.all.map _
      have rest' : waiting site (removeFile f (log (front ++ f.mailText) s)) ~
          rest.map (messageOf site) := left.all.map _
      refine ⟨mailed, dropped ++ [messageOf site f], ?_⟩
      exact {
        mails := b.mails
        accounts := (b.accounts.drop taken).reorder rest'.symm
        order := by
          intro eight
          have order := b.order eight
          unfold waiting at order ⊢
          rw [listed.order eight, List.map_cons] at order
          rw [left.order eight]
          exact order.drop
        written := by
          intro m hm
          rcases List.mem_append.mp hm with old | new
          · exact written_mono noted.written (b.written m old)
          · obtain ⟨line, hline, whole⟩ := exists_line (k.plain f hf) front
            rw [List.mem_singleton.mp new]
            refine ⟨line, ?_, (stripTag_suffix site f.mailText).isInfix.trans whole⟩
            exact List.mem_append_right _ (List.mem_append_right _ hline)
        marked := b.marked } }

theorem Kept.droppedOver (k : Kept site accepted s) (max : ℤ) (rounds : ℕ) :
    Kept site accepted (dropOver max rounds s) := by
  induction rounds generalizing s with
  | zero => exact k
  | succ rounds ih =>
      unfold dropOver
      split
      · have listed := k.listed
        split
        · exact k
        · rename_i oldest rest hfiles
          rw [hfiles] at listed
          exact ih (k.dropped listed max)
      · exact k

/-- The loop ends by its own test: there are not too many files, or none. -/
theorem dropOver_ends (k : Kept site accepted s) (max : ℤ) (rounds : ℕ)
    (enough : s.spool.length ≤ rounds) :
    (spoolCount (dropOver max rounds s) : ℤ) ≤ max ∨ (dropOver max rounds s).spool = [] := by
  induction rounds generalizing s with
  | zero => exact .inr (List.length_eq_zero_iff.mp (Nat.le_zero.mp enough))
  | succ rounds ih =>
      unfold dropOver
      split
      · have listed := k.listed
        split
        · rename_i hfiles
          rw [hfiles] at listed
          exact .inr listed.all.eq_nil
        · rename_i oldest rest hfiles
          rw [hfiles] at listed
          have left : Listed (dropFile max oldest s) rest :=
            Listed.removed (s := log _ s) ⟨listed.all, listed.order⟩ k.names
          refine ih (k.dropped listed max) ?_
          have before := listed.all.length_eq
          have after := left.all.length_eq
          rw [List.length_cons] at before
          omega
      · rename_i few
        exact .inl (not_lt.mp few)

/-! ## Sending what is spooled -/

/-- One mail for one file. -/
theorem flushEach_kept {files : List SpoolFile} (k : Kept site accepted s)
    (listed : Listed s files) (flushed : ℕ) :
    Kept site accepted (flushEach site files flushed s).state ∧
      ((flushEach site files flushed s).failed = none →
        (flushEach site files flushed s).state.spool = []) := by
  induction files generalizing s flushed with
  | nil => exact ⟨k, fun _ => listed.all.eq_nil⟩
  | cons f files ih =>
      unfold flushEach
      generalize htext : f.mailText ++ " (queued ".toList ++ queuedAt site f ++
        ", delivered late)".toList = text
      dsimp only
      have tried := deliverMail_tried site text s
      generalize deliverMail site false text s = r at tried
      obtain ⟨outcome, u⟩ := r
      cases outcome with
      | ok target =>
          have sent : Handed site text [f] files s (removeFile f (markDelivered f u)) :=
            have front : Listed s ([f] ++ files) := listed
            handed front k.names tried
          have shown : Carries text [(messageOf site f).text] := by
            apply Carries.single
            rw [← htext, List.append_assoc, List.append_assoc]
            exact (stripTag_suffix site f.mailText).isInfix.trans
              (List.prefix_append _ _).isInfix
          have noted := noted_log ("status=OK channel=agent-mail target=".toList ++ site.agent ++
            " detail=flushed file=".toList ++ f.name) (removeFile f (markDelivered f u))
          have kept : Kept site accepted (removeFile f (markDelivered f u)) :=
            k.mailed listed sent 0 fun _ => shown
          exact ih (kept.noted noted)
            ⟨by rw [noted.spool]; exact sent.listed.all,
              by rw [noted.spool, noted.seq]; exact sent.listed.order⟩ (flushed + 1)
      | error detail =>
          refine ⟨k.noted (Noted.trans tried (noted_log _ _)), ?_⟩
          intro h
          cases h

/-- Once a message is left out of a digest, all behind it are. -/
theorem more_le_foldl (files : List SpoolFile) (d : Digest) :
    d.more ≤ (files.foldl (digestStep site) d).more := by
  induction files generalizing d with
  | nil => exact Nat.le_refl _
  | cons f files ih =>
      have step : d.more ≤ (digestStep site d f).more := by
        unfold digestStep
        dsimp only
        split
        · exact Nat.le_succ _
        · exact Nat.le_refl _
      exact step.trans (ih _)

/-- A message that the digest shows. -/
theorem digestStep_shown {d : Digest} {f : SpoolFile} (shown : (digestStep site d f).more = 0) :
    ∃ front, (digestStep site d f).text =
      d.text ++ (front ++ (messageOf site f).text ++ " ||".toList) := by
  unfold digestStep at shown ⊢
  dsimp only at shown ⊢
  split at shown
  · cases shown
  · rename_i fits
    rw [if_neg fits]
    refine ⟨" (".toList ++ decimal (d.i + 1) ++ ") ".toList ++ queuedAt site f ++ " ".toList, ?_⟩
    simp only [List.append_assoc]
    rfl

/-- A digest that leaves nothing out has the text of each message behind the one before it. -/
theorem foldl_digestStep {files : List SpoolFile} {d : Digest} (nonempty : files ≠ [])
    (all : (files.foldl (digestStep site) d).more = 0) :
    ∃ body, (files.foldl (digestStep site) d).text = d.text ++ (body ++ " ||".toList) ∧
      Carries body (files.map fun f => (messageOf site f).text) := by
  induction files generalizing d with
  | nil => exact absurd rfl nonempty
  | cons f files ih =>
      rw [List.foldl_cons] at all ⊢
      have first : (digestStep site d f).more = 0 :=
        Nat.le_zero.mp ((more_le_foldl files _).trans all.le)
      obtain ⟨front, shown⟩ := digestStep_shown first
      cases files with
      | nil =>
          exact ⟨front ++ (messageOf site f).text, shown,
            Carries.single ⟨front, [], List.append_nil _⟩⟩
      | cons g files =>
          obtain ⟨body, text, carries⟩ := ih (List.cons_ne_nil _ _) all
          refine ⟨front ++ (messageOf site f).text ++ (" ||".toList ++ body), ?_, ?_⟩
          · rw [text, shown]
            simp only [List.append_assoc]
          · exact Carries.cons front (carries.append_left _)

theorem digest_shows {files : List SpoolFile} (nonempty : files ≠ [])
    (all : (digestOf site files).more = 0) :
    Carries (digestOf site files).body (files.map fun f => (messageOf site f).text) := by
  unfold digestOf at all ⊢
  dsimp only at all ⊢
  split at all
  · rename_i some
    exact absurd all some.ne'
  · rename_i none
    rw [if_neg none]
    obtain ⟨body, text, carries⟩ := foldl_digestStep nonempty all
    unfold Digest.body
    rw [text, ← List.append_assoc,
      List.dropSuffix?_eq_some_iff.mpr ⟨_, rfl, beq_self_eq_true _⟩]
    exact carries.append_left _

theorem flushDigest_kept {files : List SpoolFile} (k : Kept site accepted s)
    (listed : Listed s files) (nonempty : files ≠ []) :
    Kept site accepted (flushDigest site files s).state ∧
      ((flushDigest site files s).failed = none → (flushDigest site files s).state.spool = []) := by
  unfold flushDigest
  have shows : (digestOf site files).more = 0 →
      Carries (digestOf site files).body (files.map fun f => (messageOf site f).text) :=
    digest_shows nonempty
  generalize digestOf site files = d at shows
  dsimp only
  have tried := deliverMail_tried site d.body s
  generalize deliverMail site false d.body s = r at tried
  obtain ⟨outcome, u⟩ := r
  cases outcome with
  | ok target =>
      have whole : Listed s (files ++ []) := by
        rw [List.append_nil]
        exact listed
      have sent : Handed site d.body files [] s
          (files.foldl (fun s f => removeFile f (markDelivered f s)) u) :=
        handed whole k.names tried
      exact ⟨(k.mailed whole sent d.more shows).noted (noted_log _ _),
        fun _ => sent.listed.all.eq_nil⟩
  | error detail =>
      refine ⟨k.noted (Noted.trans tried (noted_log _ _)), ?_⟩
      intro h
      cases h

/-- After a flush that did not fail the spool is empty. -/
theorem flushSpool_kept (k : Kept site accepted s) (e : Env) :
    Kept site accepted (flushSpool site e s).state ∧
      ((flushSpool site e s).failed = none → (flushSpool site e s).state.spool = []) := by
  have listed := k.listed
  unfold flushSpool
  generalize spoolFiles s = files at listed
  dsimp only
  split
  · rename_i empty
    rw [empty] at listed
    exact ⟨k, fun _ => listed.all.eq_nil⟩
  · rename_i nonempty
    split
    · refine ⟨k.noted (noted_log _ _), ?_⟩
      intro h
      cases h
    · split
      · exact flushDigest_kept k listed nonempty
      · exact flushEach_kept k listed 0

/-! ## One call and any run -/

theorem spoolAdd_kept (k : Kept site accepted s) (e : Env) {severity text : Text}
    (word : ' ' ∉ severity) (plain : '\n' ∉ text) (reason : Text) :
    Kept site (accepted ++ [⟨e.idText, stripTag site text⟩])
      (spoolAdd site e severity text reason s) := by
  have message : messageOf site ⟨s.seq + 1, e.named, fileLines e severity text⟩ =
      ⟨e.idText, stripTag site text⟩ := by
    unfold messageOf
    rw [meta_id word, mailText_file plain]
  have posted := k.posted (f := ⟨s.seq + 1, e.named, fileLines e severity text⟩) rfl (by
    rw [mailText_file plain]
    exact plain)
  rw [message] at posted
  unfold spoolAdd
  exact (posted.noted (noted_log _ _)).droppedOver _ _

/-- The mail of an alert is sent behind all that wait, or waits behind them. -/
theorem mailLeg_kept (k : Kept site accepted s) {e : Env} (real : e.dryRun = false)
    {severity text : Text} (word : ' ' ∉ severity) (plain : '\n' ∉ text) :
    Kept site (accepted ++ [⟨e.idText, stripTag site text⟩])
      (mailLeg site e severity text s).2 := by
  obtain ⟨flushed, empty⟩ := flushSpool_kept k e
  unfold mailLeg
  generalize flushSpool site e s = flush at flushed empty
  dsimp only
  rw [real]
  cases hfailed : flush.failed with
  | none =>
      have tried := deliverMail_tried site text flush.state
      dsimp only
      generalize deliverMail site false text flush.state = r at tried
      obtain ⟨outcome, u⟩ := r
      cases outcome with
      | ok target =>
          exact (flushed.sent (empty hfailed) tried
            (stripTag_suffix site text).isInfix).noted (noted_log _ _)
      | error detail => exact spoolAdd_kept (flushed.noted tried) e word plain _
  | some detail => exact spoolAdd_kept flushed e word plain _

/-- A dry run sends and spools nothing. -/
theorem noted_mailLeg {e : Env} (dry : e.dryRun = true) (severity text : Text) :
    Noted s (mailLeg site e severity text s).2 := by
  have flushed : Noted s (flushSpool site e s).state := by
    unfold flushSpool
    dsimp only
    split
    · exact Noted.refl s
    · exact noted_log _ _
  unfold mailLeg
  generalize flushSpool site e s = flush at flushed
  dsimp only
  rw [dry]
  cases flush.failed with
  | none =>
      unfold deliverMail
      dsimp only
      exact (flushed.trans (noted_log _ _)).trans (noted_log _ _)
  | some detail => exact flushed

theorem space_not_mem_severity (raw : Text) : ' ' ∉ (severityOf raw).1 := by
  have words : ∀ w ∈ ["info".toList, "warn".toList, "page".toList, "hardware".toList],
      ' ' ∉ w := by decide
  unfold severityOf
  split
  · rename_i known
    exact words raw known
  · decide

theorem newline_not_mem_oneLine (e : Env) (message : Text) : '\n' ∉ oneLine e message := by
  unfold oneLine
  rw [List.mem_map]
  rintro ⟨c, -, hc⟩
  split at hc
  · exact absurd hc (by decide)
  · rename_i other
    exact other (.inl hc)

/-- The tag is taken off the mail of an alert. -/
theorem stripTag_mail (site : Site) (severity message : Text) :
    stripTag site (site.tag ++ " [".toList ++ severity ++ "] ".toList ++ message) =
      '[' :: severity ++ "] ".toList ++ message := by
  have split : site.tag ++ " [".toList ++ severity ++ "] ".toList ++ message =
      (site.tag ++ [' ']) ++ ('[' :: severity ++ "] ".toList ++ message) := by
    simp only [List.append_assoc, List.cons_append]
    rfl
  unfold stripTag
  rw [split, List.dropPrefix?_append_of_beq _ (beq_self_eq_true _)]
  rfl

theorem newline_not_mem_mail (site : Site) (raw : Text) (e : Env) (message : Text) :
    '\n' ∉ site.tag ++ " [".toList ++ (severityOf raw).1 ++ "] ".toList ++ oneLine e message := by
  have words : ∀ w ∈ ["info".toList, "warn".toList, "page".toList, "hardware".toList],
      '\n' ∉ w := by decide
  have severity : '\n' ∉ (severityOf raw).1 := by
    unfold severityOf
    split
    · rename_i known
      exact words raw known
    · decide
  simp [site.tag_line, severity, newline_not_mem_oneLine]

theorem flushOnly_kept (k : Kept site accepted s) (e : Env) :
    Kept site accepted (flushOnly site e s).2 := by
  have flushed := (flushSpool_kept k e).1
  unfold flushOnly
  generalize flushSpool site e s = flush at flushed
  dsimp only
  split
  · exact (flushed.noted (noted_log _ _)).noted (noted_trimLog _)
  · exact flushed.noted (noted_trimLog _)

/-- What is sent behind the check for duplicates. -/
theorem sendOn_kept (k : Kept site accepted s) (e : Env) (raw message : Text) (sum : ℕ) :
    let severity := (severityOf raw).1
    let text := site.tag ++ " [".toList ++ severity ++ "] ".toList ++ oneLine e message
    let mail := mailLeg site e severity text { s with last := some (sum, e.now) }
    let banner := bannerLeg site e severity mail.1 mail.2
    Kept site
      (accepted ++ if e.dryRun then []
        else [⟨e.idText, '[' :: severity ++ "] ".toList ++ oneLine e message⟩])
      (finish severity mail.1 banner.1 banner.2).2 := by
  intro severity text mail banner
  have marked : Noted s { s with last := some (sum, e.now) } :=
    ⟨rfl, rfl, rfl, rfl, rfl, List.prefix_refl _⟩
  have done : Noted mail.2 (finish severity mail.1 banner.1 banner.2).2 :=
    (noted_bannerLeg site e severity mail.1 mail.2).trans (noted_finish _ _ _ _)
  refine Kept.noted ?_ done
  cases dry : e.dryRun with
  | true =>
      rw [if_pos rfl, List.append_nil]
      exact k.noted (marked.trans (noted_mailLeg dry severity text))
  | false =>
      rw [if_neg Bool.false_ne_true, ← stripTag_mail site]
      exact mailLeg_kept (k.noted marked) dry (space_not_mem_severity raw)
        (newline_not_mem_mail site raw e message)

/-- What one call keeps, with the message it accepts. -/
theorem invoke_kept (k : Kept site accepted s) (call : Invocation) :
    Kept site (accepted ++ (accepts site call s).toList) (invoke site call s).2 := by
  unfold invoke accepts
  dsimp only
  by_cases configured : site.configured
  case neg =>
    rw [if_neg configured, if_pos (.inl configured), Option.toList_none, List.append_nil]
    exact k.noted (noted_notConfigured site call s)
  by_cases flushes : call.flushes
  case pos =>
    rw [if_pos configured, if_pos flushes, if_pos (.inr (.inl flushes)), Option.toList_none,
      List.append_nil]
    exact flushOnly_kept k call.env
  rw [if_pos configured, if_neg flushes]
  unfold send
  by_cases empty : call.message = []
  case pos =>
    rw [if_pos empty, if_pos (.inr (.inr (.inl empty))), Option.toList_none, List.append_nil]
    exact k.noted ((noted_log _ _).trans (noted_finish _ _ _ _))
  rw [if_neg empty]
  dsimp only
  have asked : Noted s (if (severityOf (orInfo call.severity)).2 then s else
      log ("status=WARN detail=unknown_severity value=".toList ++ orInfo call.severity) s) := by
    split
    · exact Noted.refl s
    · exact noted_log _ _
  have last : (if (severityOf (orInfo call.severity)).2 then s else
      log ("status=WARN detail=unknown_severity value=".toList ++ orInfo call.severity) s).last =
        s.last := by
    split <;> rfl
  generalize (if (severityOf (orInfo call.severity)).2 then s else
    log ("status=WARN detail=unknown_severity value=".toList ++ orInfo call.severity) s) = u
    at asked last ⊢
  have same (sum : ℕ) : duplicate sum call.env.now u = duplicate sum call.env.now s := by
    unfold duplicate
    rw [last]
  rw [same]
  by_cases again : duplicate (sumOf site (severityOf (orInfo call.severity)).1
      (oneLine call.env call.message)) call.env.now s
  case pos =>
    rw [if_pos again, if_pos (.inr (.inr (.inr (.inr again)))), Option.toList_none,
      List.append_nil]
    exact k.noted (asked.trans ((noted_log _ _).trans (noted_finish _ _ _ _)))
  rw [if_neg again]
  have kept := sendOn_kept (k.noted asked) call.env (orInfo call.severity) call.message
    (sumOf site (severityOf (orInfo call.severity)).1 (oneLine call.env call.message))
  cases dry : call.env.dryRun with
  | true =>
      rw [dry] at kept
      rw [if_pos (.inr (.inr (.inr (.inl rfl))))]
      exact kept
  | false =>
      rw [dry] at kept
      rw [if_neg (by simp [configured, flushes, empty, again])]
      exact kept

/-- What any run keeps. -/
theorem run_kept (k : Kept site accepted s) (calls : List Invocation) :
    Kept site (accepted ++ AlertSpools.accepted site s calls) (run site s calls) := by
  induction calls generalizing accepted s with
  | nil =>
      unfold AlertSpools.accepted
      rw [List.append_nil]
      exact k
  | cons call calls ih =>
      have kept := ih (invoke_kept k call)
      unfold AlertSpools.accepted
      rw [← List.append_assoc]
      exact kept

end Steps

/-! ## Where the alerts are -/

/-- The text of a message can be read in a mail that was delivered, in the spool, or in what was
logged. -/
def Somewhere (logged : List Text) (s : State) (m : Message) : Prop :=
  (∃ mail ∈ s.inbox, m.text <:+: mail.body) ∨ (∃ f ∈ s.spool, m.text <:+: f.mailText) ∨
    ∃ line ∈ logged, m.text <:+: line

instance (logged : List Text) (s : State) (m : Message) : Decidable (Somewhere logged s m) :=
  inferInstanceAs (Decidable (_ ∨ _ ∨ _))

theorem exists_mail {mails : List Mail} {mailed : List (List Message)}
    (h : List.Forall₂ (fun (mail : Mail) ms => Carries mail.body (ms.map (·.text))) mails mailed)
    {ms : List Message} (hms : ms ∈ mailed) :
    ∃ mail ∈ mails, Carries mail.body (ms.map (·.text)) := by
  induction h with
  | nil => cases hms
  | cons carries _ ih =>
      cases hms with
      | head => exact ⟨_, List.mem_cons_self, carries⟩
      | tail _ later =>
          obtain ⟨mail, hmail, found⟩ := ih later
          exact ⟨mail, List.mem_cons_of_mem _ hmail, found⟩

theorem Books.somewhere {site : Site} {ms : List Message} {mailed : List (List Message)}
    {dropped : List Message} {s : State} (b : Books site ms mailed dropped s) {m : Message}
    (hm : m ∈ ms) : Somewhere (s.trimmed ++ s.log) s m := by
  rcases b.accounts.mem hm with out | here | gone
  · obtain ⟨group, hgroup, member⟩ := List.mem_flatten.mp out
    obtain ⟨mail, hmail, carries⟩ := exists_mail b.mails hgroup
    exact .inl ⟨mail, hmail, carries.isInfix (List.mem_map_of_mem member)⟩
  · obtain ⟨f, hf, rfl⟩ := List.mem_map.mp here
    exact .inr (.inl ⟨f, hf, (stripTag_suffix site f.mailText).isInfix⟩)
  · exact .inr (.inr (b.written m gone))

/-- In any run in which no digest that was delivered left a message out, the text of every alert
that was accepted is in a mail, in the spool or was written to the log. It is at one of these
places as often as it was accepted, the mails have the alerts in the order of arrival while the
files of the spool are numbered with eight digits, and the ids that are noted are of alerts that
were mailed. -/
theorem alerts_kept (site : Site) (calls : List Invocation)
    (shown : (run site .start calls).unshown = 0) :
    (∀ m ∈ accepted site .start calls,
      Somewhere ((run site .start calls).trimmed ++ (run site .start calls).log)
        (run site .start calls) m) ∧
    ∃ mailed dropped,
      Books site (accepted site .start calls) mailed dropped (run site .start calls) := by
  have kept : Kept site (accepted site .start calls) (run site .start calls) :=
    run_kept kept_start calls
  obtain ⟨mailed, dropped, books⟩ := kept.books shown
  exact ⟨fun m hm => books.somewhere hm, mailed, dropped, books⟩

/-! ### A seat that is away -/

/-- A site with one agent, and what it is answered. -/
def gpuBox (ssh : ℕ → Answer) : Site where
  seat := "seat-box".toList
  agent := "agent-main".toList
  agentCmd := "agentctl".toList
  fallback := []
  tag := "[FROM-lss-gpu-box]".toList
  envFile := "/home/lss/.config/lss/alert.env".toList
  stateDir := "/home/lss/.local/state/lss".toList
  host := "gpu-box".toList
  ssh := ssh
  cksum := fun text =>
    if text = "info|c1 decode low".toList then 2237143582
    else if text = "warn|serve down".toList then 3743072080
    else if text = "page|serve down for 5 min".toList then 1802932230
    else if text = "info|disk full".toList then 427177468
    else 2676491026
  clock := fun epoch =>
    if epoch = "1700000000".toList then "22:13:20".toList
    else if epoch = "1700000100".toList then "22:15:00".toList
    else "22:16:40".toList
  tag_line := by decide

/-- The default limits at a moment. -/
def envAt (moment : ℕ) (alertId : ℕ) : Env :=
  ⟨200, 5, some alertId, false, false, moment, moment, moment⟩

/-- What ssh prints when the seat cannot be reached. -/
def unreached : Text := "ssh: connect to host seat-box port 22: Connection timed out".toList

/-- The seat does not answer the first calls. -/
def awayFor (calls n : ℕ) : Answer := if n < calls then ⟨255, unreached⟩ else ⟨0, []⟩

/-- Three alerts and then a flush, with a digest for more than two messages. -/
def threeAlerts : List Invocation := [
  ⟨"info".toList, "c1 decode low".toList, envAt 1700000000 1⟩,
  ⟨"warn".toList, "serve down".toList, envAt 1700000100 2⟩,
  ⟨"page".toList, "serve down for 5 min".toList, envAt 1700000200 3⟩,
  ⟨"--flush".toList, [], { envAt 1700000300 0 with digestOver := 2 }⟩]

theorem three_alerts_are_kept :
    (run (gpuBox (awayFor 5)) .start threeAlerts).unshown = 0 ∧
    (∀ m ∈ accepted (gpuBox (awayFor 5)) .start threeAlerts,
      Somewhere ((run (gpuBox (awayFor 5)) .start threeAlerts).trimmed ++
        (run (gpuBox (awayFor 5)) .start threeAlerts).log)
        (run (gpuBox (awayFor 5)) .start threeAlerts) m) ∧
    ∃ mailed dropped, Books (gpuBox (awayFor 5)) (accepted (gpuBox (awayFor 5)) .start threeAlerts)
      mailed dropped (run (gpuBox (awayFor 5)) .start threeAlerts) :=
  have shown : (run (gpuBox (awayFor 5)) .start threeAlerts).unshown = 0 := by decide +kernel
  ⟨shown, alerts_kept _ _ shown⟩


/-! ### A week without the agent -/

/-- A site whose seat is away all the time. -/
def awayBox : Site := gpuBox fun _ => ⟨255, unreached⟩

/-- An alert that finds no place in the spool, and another one. -/
def diskFull : Invocation :=
  ⟨"info".toList, "disk full".toList, { envAt 1700000000 1 with spoolMax := 0 }⟩

def gpuLost : Invocation := ⟨"info".toList, "gpu 3 lost".toList, envAt 1700000100 2⟩

/-- The flush that the collector starts every five minutes. -/
def retry : Invocation := ⟨"--flush".toList, [], envAt 1700000400 0⟩

/-- What a retry writes to the log. -/
def failure : List Text :=
  [unreached, "status=FAIL channel=agent-mail target=".toList ++ awayBox.agent ++
    " detail=flush_failed reason=".toList ++ MailDetail.sshOrAgentmailFailed.text ++
    " spool=".toList ++ decimal 1]

theorem deliverMail_away (body : Text) (s : State) :
    deliverMail awayBox false body s = (.error .sshOrAgentmailFailed,
      { s with calls := s.calls + 1, log := s.log ++ [unreached] }) := by
  have detail : mailDetail unreached = .sshOrAgentmailFailed := by decide +kernel
  have line : unreached.splitOn '\n' = [unreached] := by decide +kernel
  have called : callSeat awayBox s =
      (⟨255, unreached⟩, { s with calls := s.calls + 1, log := s.log ++ [unreached] }) := by
    unfold callSeat log
    rw [← line]
    rfl
  unfold deliverMail
  rw [if_neg Bool.false_ne_true]
  unfold deliverTo
  rw [called]
  dsimp only
  rw [if_neg (by decide), detail]

theorem retry_eq {s : State} {f : SpoolFile} (one : s.spool = [f]) :
    (invoke awayBox retry s).2 =
      trimLog { s with calls := s.calls + 1, log := s.log ++ failure } := by
  have files : spoolFiles s = [f] := by
    unfold spoolFiles
    rw [one]
    rfl
  have few : ¬ retry.env.digestOver < ([f].length : ℤ) := by
    show ¬ (5 : ℤ) < 1
    omega
  have plain : '\n' ∉ "status=FAIL channel=agent-mail target=".toList ++ awayBox.agent ++
      " detail=flush_failed reason=".toList ++ MailDetail.sshOrAgentmailFailed.text ++
      " spool=".toList ++ decimal 1 := by decide +kernel
  have flushed : flushSpool awayBox retry.env s = ⟨some .sshOrAgentmailFailed, 0,
      { s with calls := s.calls + 1, log := s.log ++ failure }⟩ := by
    unfold flushSpool
    rw [files]
    dsimp only
    rw [if_neg (List.cons_ne_nil _ _), if_neg (by decide), if_neg few]
    unfold flushEach
    dsimp only
    rw [deliverMail_away]
    dsimp only
    have count : spoolCount { s with calls := s.calls + 1, log := s.log ++ [unreached] } = 1 := by
      rw [spoolCount_eq]
      show s.spool.length = 1
      rw [one, List.length_singleton]
    rw [count]
    unfold log
    rw [List.splitOn_eq_singleton plain]
    dsimp only
    rw [List.append_assoc]
    rfl
  unfold invoke
  rw [if_pos (by decide), if_pos (by decide)]
  unfold flushOnly
  rw [flushed]
  rfl

/-- The log grows until it is cut. -/
theorem retries_eq {s : State} {f : SpoolFile} (one : s.spool = [f]) (k : ℕ)
    (room : s.log.length + 2 * k ≤ 4000) :
    run awayBox s (List.replicate k retry) =
      { s with
        calls := s.calls + k
        log := s.log ++ (List.replicate k failure).flatten } := by
  induction k generalizing s with
  | zero =>
      show s = _
      rw [List.replicate_zero, List.flatten_nil, List.append_nil]
      rfl
  | succ k ih =>
      have grown : (s.log ++ failure).length = s.log.length + 2 := List.length_append
      have small : ¬ 4000 < (s.log ++ failure).length := by omega
      have next := retry_eq one
      unfold trimLog at next
      rw [if_neg small] at next
      have more := ih (s := { s with calls := s.calls + 1, log := s.log ++ failure }) one (by
        show (s.log ++ failure).length + 2 * k ≤ 4000
        omega)
      show run awayBox (invoke awayBox retry s).2 (List.replicate k retry) = _
      rw [next, more, List.replicate_succ, List.flatten_cons, ← List.append_assoc]
      dsimp only
      congr 1
      omega

/-- Of a log that is cut only late lines are left. -/
theorem mem_trimLog {s : State} {old more : List Text} (log : s.log = old ++ more)
    (long : 4000 < s.log.length) (early : old.length ≤ s.log.length - 2000) :
    ∀ line ∈ (trimLog s).log, line ∈ more := by
  intro line hline
  unfold trimLog at hline
  rw [if_pos long] at hline
  dsimp only at hline
  generalize s.log.length - 2000 = cut at hline early
  rw [log, List.drop_append, List.drop_of_length_le early, List.nil_append] at hline
  exact List.mem_of_mem_drop hline

theorem mem_retries {k : ℕ} {line : Text} (h : line ∈ (List.replicate k failure).flatten) :
    line ∈ failure := by
  obtain ⟨group, hgroup, member⟩ := List.mem_flatten.mp h
  rw [List.eq_of_mem_replicate hgroup] at member
  exact member

theorem length_retries (k : ℕ) : (List.replicate k failure).flatten.length = 2 * k := by
  induction k with
  | zero => rfl
  | succ k ih =>
      rw [List.replicate_succ, List.flatten_cons, List.length_append, ih]
      show 2 + 2 * k = 2 * (k + 1)
      omega

/-- When the log was cut, only retries are left in it. -/
theorem cut_by_retries {s : State} {f : SpoolFile} (one : s.spool = [f]) {k : ℕ}
    (room : s.log.length + 2 * k ≤ 4000) (full : 4000 < s.log.length + 2 * (k + 1))
    (early : s.log.length ≤ 2000) :
    ∃ u, run awayBox s (List.replicate (k + 1) retry) = trimLog u ∧ u.inbox = s.inbox ∧
      u.spool = s.spool ∧ ∀ line ∈ (trimLog u).log, line ∈ failure := by
  have filled := retries_eq one k room
  have step : run awayBox s (List.replicate (k + 1) retry) =
      trimLog { s with
        calls := s.calls + k + 1
        log := s.log ++ (List.replicate k failure).flatten ++ failure } := by
    unfold run at filled ⊢
    rw [List.replicate_succ', List.foldl_concat, filled]
    exact retry_eq one
  refine ⟨_, step, rfl, rfl, ?_⟩
  have lines : (s.log ++ (List.replicate k failure).flatten ++ failure).length =
      s.log.length + 2 * k + 2 := by
    rw [List.length_append, List.length_append, length_retries]
    rfl
  intro line hline
  have late := mem_trimLog (List.append_assoc s.log _ failure) (by rw [lines]; omega)
    (by rw [lines]; omega) line hline
  rcases List.mem_append.mp late with before | now
  · exact mem_retries before
  · exact now

/-- A week without the agent. -/
def week : List Invocation := [diskFull, gpuLost] ++ List.replicate 1997 retry

theorem run_append (site : Site) (s : State) (calls more : List Invocation) :
    run site s (calls ++ more) = run site (run site s calls) more := List.foldl_append

theorem mem_accepted_cons {site : Site} {s : State} {call : Invocation} {calls : List Invocation}
    {m : Message} (h : accepts site call s = some m) : m ∈ accepted site s (call :: calls) := by
  unfold accepted
  rw [h]
  exact List.mem_cons_self

/-- The log does not keep the text of an alert that was dropped for ever. -/
theorem dropped_text_is_trimmed :
    ¬ ∀ m ∈ accepted awayBox .start week,
      Somewhere (run awayBox .start week).log (run awayBox .start week) m := by
  have first : accepts awayBox diskFull .start =
        some ⟨"1".toList, "[info] disk full".toList⟩ := by decide +kernel
  have two : (run awayBox .start [diskFull, gpuLost]).spool = [⟨2, 1700000100,
        ["ts=1700000100 id=2 severity=info".toList,
          "[FROM-lss-gpu-box] [info] gpu 3 lost".toList]⟩] ∧
      (run awayBox .start [diskFull, gpuLost]).inbox.length = 0 ∧
      (run awayBox .start [diskFull, gpuLost]).log.length = 7 := by decide +kernel
  have elsewhere : ∀ line ∈ failure, ¬ "[info] disk full".toList <:+: line := by decide +kernel
  generalize hs : run awayBox .start [diskFull, gpuLost] = s at two
  obtain ⟨one, none, seven⟩ := two
  obtain ⟨u, after, inbox, spool, log⟩ := cut_by_retries (k := 1996) one (by omega) (by omega)
    (by omega)
  have whole : run awayBox .start week = trimLog u := by
    have joined := run_append awayBox .start [diskFull, gpuLost] (List.replicate 1997 retry)
    rw [hs] at joined
    exact joined.trans after
  have noted := noted_trimLog u
  intro all
  have place := all ⟨"1".toList, "[info] disk full".toList⟩ (mem_accepted_cons first)
  rw [whole] at place
  rcases place with ⟨mail, hmail, -⟩ | ⟨f, hf, part⟩ | ⟨line, hline, part⟩
  · rw [noted.inbox, inbox, List.length_eq_zero_iff.mp none] at hmail
    cases hmail
  · rw [noted.spool, spool, one, List.mem_singleton] at hf
    rw [hf] at part
    exact absurd part (by decide +kernel)
  · exact elsewhere line (log line hline) part

end Lss.Analysis.AlertSpools
