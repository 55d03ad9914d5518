import Mathlib.Order.Bounds.Defs
import GetPlatform.Messages.Conversations

set_option autoImplicit false

/-! # The date of the last message

A conversation is listed by the date of its last message, which `send` writes when it opens the
conversation. The date is the one the call has taken before its transaction, and it is written whatever
stands there: a call that is overtaken by a later one sets it back. As long as no call commits an older
date than the one that stands, it is the date of the last message. -/

namespace GetPlatform.Messages

open Pool Prog

/-- The dates of the messages of a conversation. -/
def dates (s : World) (c : Conversation) : Set Nat :=
  {t | ∃ m ∈ s.messages, m.conversationId = c.id ∧ m.createdAt = t}

/-- Every conversation has the date of its last message. -/
def Dated (s : World) : Prop := ∀ c ∈ s.conversations, IsGreatest (dates s c) c.lastMessageAt

/-- A later date stands in the conversation than the one the transaction has opened it with. -/
def overtaken (s : World) (l : Log) : Bool :=
  match (l.pending.head?.map (·.stmt) : Option Stmt) with
  | some (.conversationUpsert directKey now) =>
      (s.conversations.find? directKey).any fun c => now < c.lastMessageAt
  | _ => false

/-- No call commits that has been overtaken. -/
def InOrder (p : Platform) : Step model Op → Prop
  | .exec i _ => (p.threads[i]?.any fun t => t.commits && overtaken p.db t.trace) = false
  | _ => True

instance (p : Platform) (a : Step model Op) : Decidable (InOrder p a) := by
  cases a <;> unfold InOrder <;> infer_instance

theorem le_of_not_overtaken {s : World} {l : Log} {a b : UserId} {now : Nat} {row c : Conversation}
    {rest : List Ev} (h : overtaken s l = false) (hl : l.pending = opened a b now row :: rest)
    (hc : s.conversations.find? (getDirectKey a.text b.text) = some c) : c.lastMessageAt ≤ now := by
  simp only [overtaken, hl, List.head?_cons, Option.map_some, hc, Option.any_some,
    decide_eq_false_iff_not] at h
  omega

/-! ## What is written in a transaction -/

/-- A message has the date that its conversation was opened with. -/
def timed : Guards interface Op where
  stmt l q := ∀ data, q = .messageInsert data →
    ∃ a b row rest, l.pending = opened a b data.createdAt row :: rest
  commit _ := True

theorem timed_other {l : Log} {q : Stmt} (h : ∀ data, q ≠ .messageInsert data) : timed.stmt l q :=
  fun data heq => absurd heq (h data)

theorem post_timed (senderId recipientId : UserId) (subject : Option String) (body : String) (now : Nat)
    (files : List File) {o : Op} {d : List Ev} {Q : Log → SentMessage → Prop} {E : Log → Err → Prop}
    (hQ : ∀ es a, Q ⟨o, d, some ⟨.readCommitted, es⟩⟩ a) (hE : ∀ l e, E l e) :
    (post senderId recipientId subject body now files).Conforms model timed Q E
      ⟨o, d, some ⟨.readCommitted, []⟩⟩ := by
  simp only [post, bind_eq, pure_eq, throw_eq, conforms_handle, conforms_perform, conforms_fail,
    Trace.push_inside, List.nil_append]
  refine ⟨timed_other (by simp), fun _ => hE _ _, fun row _ =>
    ⟨timed_other (by simp), fun _ => hE _ _, fun ids _ => ?_⟩⟩
  cases ids with
  | nil => exact hE _ _
  | cons id ids =>
      simp only [conforms_handle, conforms_perform, conforms_fail, Trace.push_inside,
        List.cons_append, List.nil_append]
      refine ⟨timed_other (by simp), fun _ => hE _ _, fun _ _ => ⟨?_, fun _ => hE _ _, fun message _ => ?_⟩⟩
      · rintro data ⟨⟩
        exact ⟨senderId, recipientId, row, _, rfl⟩
      · refine (only_attach _ files).conforms_inside (fun es hes q hq => ?_) (fun es hes _ => hQ _ _)
          fun _ _ _ => hE _ _
        rintro data rfl
        exact hq.elim

theorem send_timed (toLowerCase : String → String) (o : Op) :
    (program toLowerCase o).Conforms model timed (fun _ _ => True) (fun _ _ => True) (.start o) := by
  simp only [program, send, bind_eq, pure_eq, throw_eq, conforms_handle, conforms_perform,
    conforms_ite, conforms_fail, Trace.start_eq, Trace.push_outside]
  refine ⟨fun _ => trivial, fun _ => ⟨timed_other (by simp), fun _ => trivial, fun recipient _ => ?_⟩⟩
  cases recipient with
  | none => trivial
  | some recipientId =>
      simp only [conforms_ite, conforms_fail, conforms_handle, conforms_perform, Trace.push_outside]
      refine ⟨fun _ => trivial, fun _ => ⟨timed_other (by simp), fun _ => trivial, fun now _ => ?_⟩⟩
      simp only [conforms_transaction, Trace.openTx_mk]
      refine ⟨trivial, post_timed _ _ _ _ _ _ (fun es message => ?_) fun _ _ => trivial⟩
      exact ⟨by simp, trivial, fun _ => trivial, timed_other (by simp), fun _ => trivial, fun _ _ =>
        ⟨timed_other (by simp), fun _ => trivial, fun _ _ => trivial⟩⟩

/-! ## What an open transaction has dated -/

/-- The conversation that was opened has the date of the call, and so has the message, which is new. -/
structure Punctual (s : World) (l : Log) : Prop where
  opened : ∀ a b now row rest, l.pending = opened a b now row :: rest → row.lastMessageAt = now
  posted : ∀ data id, posted data id ∈ l.pending →
    (∃ a b row rest, l.pending = Messages.opened a b data.createdAt row :: rest) ∧
      s.messages.contains id = false

theorem punctual_of_nil {s : World} {l : Log} (h : l.pending = []) : Punctual s l := by
  constructor <;> intros <;> simp_all

theorem lastMessageAt_of_exec {s : World} {key : CodeUnits} {now : Nat} {c : Choice}
    {row : Conversation} (h : exec (.conversationUpsert key now) c s = some row) :
    row.lastMessageAt = now := by
  cases c with
  | stored url kind => cases h
  | nat id =>
      simp only [exec] at h
      split at h
      · exact (Option.some.inj h) ▸ rfl
      · split at h
        · cases h
        · exact (Option.some.inj h) ▸ rfl

/-- What was sent stays sent. -/
theorem contains_replay {s : World} {id : Id} (es : List Ev) (h : s.messages.contains id = true) :
    (model.replay es s).messages.contains id = true := by
  refine @Model.applyAll_keeps _ model (fun t => t.messages.contains id = true) (model.writesOf es)
    (fun w _ t ht => ?_) s h
  cases w with
  | message row => exact Table.contains_insert ht
  | _ => exact ht

theorem new_of_exec {s : World} {data : MessageCreate} {id : Id} {c : Choice}
    (h : exec (.messageInsert data) c s = some (data.row id)) : s.messages.contains id = false := by
  cases c with
  | stored url kind => cases h
  | nat n =>
      simp only [exec] at h
      split at h
      · cases h
      · next hfree =>
          obtain rfl : n = id := congrArg Message.id (Option.some.inj h)
          rw [not_or, Bool.not_eq_true] at hfree
          exact hfree.1

theorem Punctual.push {s : World} {l : Log} {x : Tx interface} {q : Stmt} {a : Ans q} {c : Choice}
    (h : Punctual s l) (htx : l.tx = some x) (hexec : exec q c (l.view model s) = some a)
    (hstmt : timed.stmt l q) : Punctual s (l.push ⟨q, a⟩) := by
  have hpending : (l.push ⟨q, a⟩).pending = l.pending ++ [⟨q, a⟩] := by
    simp [Trace.push_of_some htx, Trace.pending, htx]
  have hhead : ∀ {u v now row rest}, l.pending = Messages.opened u v now row :: rest →
      (l.push ⟨q, a⟩).pending = Messages.opened u v now row :: (rest ++ [⟨q, a⟩]) := by
    intro u v now row rest hl
    rw [hpending, hl]
    rfl
  refine ⟨fun u v now row rest heq => ?_, fun data id hmem => ?_⟩
  · cases hl : l.pending with
    | nil =>
        rw [hpending, hl] at heq
        obtain ⟨heq, -⟩ := List.cons.inj heq
        obtain ⟨rfl, heq⟩ := Event.mk.inj heq
        obtain rfl := eq_of_heq heq
        exact lastMessageAt_of_exec hexec
    | cons e es =>
        rw [hpending, hl] at heq
        obtain ⟨rfl, -⟩ := List.cons.inj heq
        exact h.opened u v now row es hl
  · rw [hpending] at hmem
    rcases List.mem_append.1 hmem with hmem | hmem
    · obtain ⟨⟨u, v, row, rest, hl⟩, hnew⟩ := h.posted data id hmem
      exact ⟨⟨u, v, row, _, hhead hl⟩, hnew⟩
    · obtain ⟨rfl, hans⟩ := Event.mk.inj (List.mem_singleton.1 hmem)
      obtain rfl := eq_of_heq hans
      obtain ⟨u, v, row, rest, hl⟩ := hstmt data rfl
      refine ⟨⟨u, v, row, _, hhead hl⟩, ?_⟩
      have hview := new_of_exec hexec
      by_contra hsent
      rw [Bool.not_eq_false] at hsent
      rw [Trace.view, contains_replay l.pending hsent] at hview
      cases hview

/-- A call that is still in its transaction does not notice: its message is another one. -/
theorem Posted.punctual {a b : UserId} {l u : Log} {s : World} (h : Posted a b l.pending)
    (hl : Agreed s l) (hu : Punctual s u) (hfree : u.Free model (l.held model)) :
    Punctual (l.view model s) u := by
  obtain ⟨now, row, rest, data, id, attachments, -, hposted, -, -, hview⟩ := h.view hl
  refine ⟨hu.opened, fun data' id' hmem => ?_⟩
  obtain ⟨hhead, hnew⟩ := hu.posted data' id' hmem
  refine ⟨hhead, ?_⟩
  have hne : id' ≠ id := by
    rintro rfl
    have hheld : Write.message (data.row id') ∈ l.held model :=
      model.mem_writesOf.2 ⟨_, hposted, List.mem_singleton.2 rfl⟩
    exact hfree.of_mem hheld hmem (v := .message (data'.row id')) (List.mem_singleton.2 rfl) rfl rfl
  rw [hview]
  show ((s.messages.insert (data.row id)).find? id').isSome = false
  rwa [Table.find?_insert_ne _ hne]

/-- A complete transaction dates its conversation, when no later date stands there. -/
theorem Posted.dated {a b : UserId} {l : Log} {s : World} (h : Posted a b l.pending) (hl : Agreed s l)
    (hp : Punctual s l) (hs : Paired s) (hd : Dated s)
    (horder : overtaken s l = false) :
    Dated (l.view model s) := by
  obtain ⟨now, row, rest, data, id, attachments, hpending, hposted, hid, -, hview⟩ := h.view hl
  obtain ⟨hkey, hfits⟩ := hl.opened a b now row rest hpending
  obtain ⟨⟨a', b', row', rest', hhead⟩, hnew⟩ := hp.posted data id hposted
  have hnow : data.createdAt = now := by
    rw [hpending] at hhead
    obtain ⟨hstmt, -⟩ := Event.mk.inj (List.cons.inj hhead).1
    exact (Stmt.conversationUpsert.inj hstmt).2.symm
  have hrow : row.lastMessageAt = now := hp.opened a b now row rest hpending
  have hmem : ∀ m, m ∈ s.messages.insert (data.row id) ↔ m ∈ s.messages ∨ m = data.row id :=
    fun _ => Table.mem_insert hnew
  rw [hview]
  intro c hc
  rcases Table.mem_put.1 hc with rfl | ⟨hc, hother⟩
  · refine ⟨⟨data.row id, (hmem _).2 (.inr rfl), hid, hnow.trans hrow.symm⟩, ?_⟩
    rintro t ⟨m, hm, hmid, rfl⟩
    rw [hrow]
    rcases (hmem m).1 hm with hm | rfl
    · -- An older message of the conversation is no later than the date that stood there.
      obtain ⟨d, hdmem, hdid⟩ := hs.message m hm
      unfold Fits at hfits
      cases hfind : s.conversations.find? c.directKey with
      | none =>
          rw [hfind] at hfits
          exact absurd (hdid.trans hmid) (hfits d hdmem)
      | some e =>
          rw [hfind] at hfits
          have hlast : m.createdAt ≤ e.lastMessageAt :=
            (hd e (Table.mem_of_find? hfind)).2 ⟨m, hm, hmid.trans hfits.symm, rfl⟩
          exact hlast.trans (le_of_not_overtaken horder hpending (hkey ▸ hfind))
    · exact hnow.le
  · have hne : c.id ≠ row.id := hfits.ne hs hc hother
    have hdates : ∀ t, t ∈ dates { s.join row a b with
        messages := s.messages.insert (data.row id), attachments } c ↔ t ∈ dates s c := by
      intro t
      constructor
      · rintro ⟨m, hm, hmid, rfl⟩
        rcases (hmem m).1 hm with hm | rfl
        · exact ⟨m, hm, hmid, rfl⟩
        · exact absurd (hmid.symm.trans hid) hne
      · rintro ⟨m, hm, hmid, rfl⟩
        exact ⟨m, (hmem m).2 (.inl hm), hmid, rfl⟩
    rw [Set.ext hdates]
    exact hd c hc

/-! ## Every run -/

/-- Both sets of guards. -/
def dating : Guards interface Op :=
  ⟨fun l q => guards.stmt l q ∧ timed.stmt l q, fun l => guards.commit l ∧ timed.commit l⟩

theorem dated_rules : @Rules interface model Op Err Reply dating InOrder
    (fun s => Paired s ∧ Dated s) (fun s l => Agreed s l ∧ Punctual s l) (fun _ _ => True) where
  symm _ _ _ := trivial
  start _ _ _ _ := ⟨agreed_of_nil rfl, punctual_of_nil rfl⟩
  start_pair _ _ _ _ _ := trivial
  env _ _ _ h := ⟨⟨h.1.of_eq rfl rfl rfl, h.2⟩, fun _ hl =>
    ⟨⟨hl.1.opened, hl.1.found⟩, ⟨hl.2.opened, hl.2.posted⟩⟩⟩
  drop _ _ _ := ⟨agreed_of_nil rfl, punctual_of_nil rfl⟩
  drop_pair _ _ _ := trivial
  openTx _ _ _ _ _ := ⟨agreed_of_nil rfl, punctual_of_nil rfl⟩
  openTx_pair _ _ _ _ _ := trivial
  call p i c t q a h hcall htx := by
    have hwrites : writes q a = [] := by
      have hguard := hcall.guard.1
      simp only [guards, htx] at hguard
      exact hguard a
    have hsame : model.applyAll (model.writes q a) p.db = p.db := by
      rw [show model.writes q a = [] from hwrites, Model.applyAll_nil]
    have hnil : (t.trace.push ⟨q, a⟩).pending = [] := by
      simp [Trace.push_of_none htx, Trace.pending, htx]
    rw [hsame]
    exact ⟨h.db, ⟨agreed_of_nil hnil, punctual_of_nil hnil⟩, fun u hu => ⟨h.other hu, trivial⟩⟩
  callTx p i c t q a x h hcall htx := by
    obtain ⟨hagreed, hpunctual⟩ := h.thread i t hcall.here
    exact ⟨⟨hagreed.push htx hcall.exec, hpunctual.push htx hcall.exec hcall.guard.2⟩,
      fun _ _ => trivial⟩
  commit p i c t x h hcommit := by
    obtain ⟨⟨a, b, hab, hposted⟩, -⟩ := hcommit.guard
    obtain ⟨hagreed, hpunctual⟩ := h.thread i t hcommit.here
    have hallowed := hcommit.allowed
    simp only [InOrder, hcommit.here, Option.any_some, hcommit.next, Bool.true_and] at hallowed
    have hdated := hposted.dated hagreed hpunctual h.db.1 h.db.2 hallowed
    refine ⟨⟨hposted.paired hagreed hab h.db.1, hdated⟩, ⟨agreed_of_nil rfl, punctual_of_nil rfl⟩,
      fun u hu => ⟨?_, trivial⟩⟩
    obtain ⟨huagreed, hupunctual⟩ := h.other hu
    exact ⟨hposted.agreed hagreed huagreed (hcommit.free u hu),
      hposted.punctual hagreed hupunctual (hcommit.free u hu)⟩

/-- **Every conversation has the date of its last message**, in every state of a run in which no call
sets a date back. -/
theorem last_message_dated (toLowerCase : String → String) (users : Table User) {p : Platform}
    (hrun : Run (program toLowerCase) InOrder (idle (World.silent users)) p) : Dated p.db := by
  have hstart : Paired (World.silent users) ∧ Dated (World.silent users) :=
    ⟨paired_silent users, fun _ h => by cases h⟩
  exact (dated_rules.holds (fun _ o _ => (send_conforms toLowerCase o).both (send_timed toLowerCase o)
    |> conforms_mono (fun _ _ _ => trivial) fun _ _ _ => trivial) hstart hrun).2.db.2

/-- Bob answers before Alice writes again. -/
theorem last_message_dated_in_turn :
    ∃ p : Platform, Run (program fun email => email) InOrder (idle (World.silent twoUsers)) p ∧
      p.db.messages.rows.length = 2 ∧ Dated p.db := by
  have hplay : ((idle (World.silent twoUsers) : Platform).play (program fun email => email) InOrder
      bothWays).any (fun p => p.db.messages.rows.length = 2) = true := by
    decide +kernel
  obtain ⟨p, hrun, hp⟩ := exists_run_of_play hplay
  exact ⟨p, hrun, of_decide_eq_true hp, last_message_dated _ _ hrun⟩

/-- Every call has ended. -/
def Quiescent (p : Platform) : Prop :=
  ∀ t ∈ p.threads, (t.rest.all fun k => match k with
    | .ret _ => true
    | .fail _ => true
    | _ => false) = true

instance (p : Platform) : Decidable (Quiescent p) := List.decidableBAll _ _

/-- Alice takes her date first, and Bob, who takes his later, sends his message before hers. -/
def overtaking : List (Step model Op) :=
  [.spawn ⟨alice, ⟨"bob@get.mg", none, "Bonjour"⟩, []⟩,
    .spawn ⟨bob, ⟨"alice@get.mg", none, "Salut"⟩, []⟩,
    .exec 0 (.nat 0), .exec 1 (.nat 0), .exec 0 (.nat 5), .exec 1 (.nat 6),
    .exec 1 (.nat 0), .exec 1 (.nat 10), .exec 1 (.nat 0), .exec 1 (.nat 0), .exec 1 (.nat 20),
    .exec 1 (.nat 0), .exec 1 (.nat 0), .exec 1 (.nat 0),
    .exec 0 (.nat 0), .exec 0 (.nat 11), .exec 0 (.nat 0), .exec 0 (.nat 0), .exec 0 (.nat 21),
    .exec 0 (.nat 0), .exec 0 (.nat 0), .exec 0 (.nat 0)]

/-- The conversation has the date of Alice's message, and Bob's is later. -/
theorem not_last_message_dated :
    ¬ ∀ (toLowerCase : String → String) (users : Table User) (p : Platform),
      Run (program toLowerCase) anyStep (idle (World.silent users)) p → Quiescent p → Dated p.db := by
  intro h
  have hplay : ((idle (World.silent twoUsers) : Platform).play (program fun email => email) anyStep
      overtaking).any (fun p => Quiescent p ∧
        ∃ c ∈ p.db.conversations.rows, ∃ m ∈ p.db.messages.rows,
          m.conversationId = c.id ∧ c.lastMessageAt < m.createdAt) = true := by
    decide +kernel
  obtain ⟨p, hrun, hp⟩ := exists_run_of_play hplay
  obtain ⟨hquiescent, c, hc, m, hm, hid, hlater⟩ := of_decide_eq_true hp
  have hlast := (h _ _ p hrun hquiescent c hc).2 ⟨m, hm, hid, rfl⟩
  exact absurd hlast (by omega)

end GetPlatform.Messages
