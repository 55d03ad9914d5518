import GetPlatform.Messages.MessageService

set_option autoImplicit false

/-! # One conversation for each pair of users

The key of a conversation names its two users, whoever of them wrote first. `send` opens the
conversation under this key and makes both users its participants in one transaction, and what it has
written keeps the key and the identifier locked: two calls that open the same conversation follow one
another, and no call ever sees a conversation without its participants. -/

namespace GetPlatform.Messages

open Pool Prog

abbrev Log := Trace interface Op
abbrev Ev := Event interface
abbrev Platform := Pool model Op Err Reply

/-- Conversation `c` is the one of `a` and `b`: it has their key and these two participants, and each
    message in it goes from one of them to the other. -/
structure Between (s : World) (c : Conversation) (a b : UserId) : Prop where
  key : c.directKey = getDirectKey a.text b.text
  participants : ∀ u, (⟨c.id, u⟩ : ConversationParticipant) ∈ s.participants ↔ u = a ∨ u = b
  messages : ∀ m ∈ s.messages, m.conversationId = c.id → s(m.senderId, m.recipientId) = s(a, b)

/-- Every conversation is the one of two users. -/
structure Paired (s : World) : Prop where
  ids : ∀ c ∈ s.conversations, ∀ d ∈ s.conversations, c.id = d.id → c = d
  between : ∀ c ∈ s.conversations, ∃ a b, a ≠ b ∧ Between s c a b
  participant : ∀ q ∈ s.participants, ∃ c ∈ s.conversations, c.id = q.conversationId
  message : ∀ m ∈ s.messages, ∃ c ∈ s.conversations, c.id = m.conversationId

/-- Whether conversations are paired shows in the three tables alone. -/
theorem Paired.of_eq {s s' : World} (h : Paired s) (hc : s'.conversations = s.conversations)
    (hp : s'.participants = s.participants) (hm : s'.messages = s.messages) : Paired s' := by
  refine ⟨hc ▸ h.ids, fun c hmem => ?_, hc ▸ hp ▸ h.participant, hc ▸ hm ▸ h.message⟩
  obtain ⟨a, b, hab, hbetween⟩ := h.between c (hc ▸ hmem)
  exact ⟨a, b, hab, hbetween.key, hp ▸ hbetween.participants, hm ▸ hbetween.messages⟩

/-! ## The key of a pair -/

theorem getDirectKey_comm (a b : CodeUnits) : getDirectKey a b = getDirectKey b a :=
  pairKey_comm colon a b

theorem getDirectKey_inj {a b c d : UserId}
    (h : getDirectKey a.text b.text = getDirectKey c.text d.text) : s(a, b) = s(c, d) := by
  have htext : ∀ u v : UserId, u.text = v.text → u = v := by
    rintro ⟨_, _⟩ ⟨_, _⟩ rfl
    rfl
  have hpair : s(a.text, b.text) = s(c.text, d.text) := pairKey_inj a.noColon b.noColon h
  rcases Sym2.eq_iff.1 hpair with ⟨hac, hbd⟩ | ⟨had, hbc⟩
  · rw [htext _ _ hac, htext _ _ hbd]
  · rw [htext _ _ had, htext _ _ hbc, Sym2.eq_swap]

theorem mem_pair {a b u : UserId} : u ∈ s(a, b) ↔ u = a ∨ u = b := Sym2.mem_iff

/-- Two users of one conversation are the users that are named with it. -/
theorem Between.pair_eq {s : World} {c : Conversation} {a b a' b' : UserId} (h : Between s c a b)
    (hkey : c.directKey = getDirectKey a'.text b'.text) : s(a, b) = s(a', b') :=
  getDirectKey_inj (h.key.symm.trans hkey)

/-- A participant is its whole key. -/
theorem mem_insert_participant {t : Table ConversationParticipant} {r q : ConversationParticipant} :
    q ∈ t.insert r ↔ q ∈ t ∨ q = r := by
  refine ⟨Table.mem_of_mem_insert, ?_⟩
  rintro (hq | rfl)
  · exact Table.mem_insert_of_mem hq
  · obtain ⟨r, hr⟩ := Option.isSome_iff_exists.1 (Table.contains_insert_self t q)
    obtain ⟨hmem, hkey⟩ := Table.find?_eq_some.1 hr
    have hrow : r = q := by
      cases r
      cases q
      simpa [Keyed.key] using hkey
    exact hrow ▸ hmem

/-! ## Opening a conversation, and writing in it -/

/-- The row takes the place of the conversation with its key, or no conversation has its
    identifier. -/
def Fits (s : World) (row : Conversation) : Prop :=
  match s.conversations.find? row.directKey with
  | some c => c.id = row.id
  | none => ∀ c ∈ s.conversations, c.id ≠ row.id

/-- The state after a conversation is opened and its users have joined it. -/
def World.join (row : Conversation) (a b : UserId) (s : World) : World :=
  { s with conversations := s.conversations.put row,
           participants := (s.participants.insert ⟨row.id, a⟩).insert ⟨row.id, b⟩ }

section Join

variable {s : World} {row c : Conversation} {a b : UserId}

/-- Other conversations have other identifiers. -/
theorem Fits.ne (hfits : Fits s row) (h : Paired s) (hc : c ∈ s.conversations)
    (hkey : c.directKey ≠ row.directKey) : c.id ≠ row.id := by
  intro hid
  unfold Fits at hfits
  cases hfind : s.conversations.find? row.directKey with
  | none =>
      rw [hfind] at hfits
      exact hfits c hc hid
  | some d =>
      rw [hfind] at hfits
      obtain rfl := h.ids c hc d (Table.mem_of_find? hfind) (hid.trans hfits.symm)
      exact hkey (Table.key_of_find? hfind)

theorem mem_join {q : ConversationParticipant} :
    q ∈ (s.join row a b).participants ↔ q ∈ s.participants ∨ q = ⟨row.id, a⟩ ∨ q = ⟨row.id, b⟩ := by
  rw [World.join, mem_insert_participant, mem_insert_participant, or_assoc]

/-- The conversation that was opened has the two users as participants. -/
theorem Fits.between (hfits : Fits s row) (h : Paired s)
    (hkey : row.directKey = getDirectKey a.text b.text) : Between (s.join row a b) row a b := by
  unfold Fits at hfits
  cases hfind : s.conversations.find? row.directKey with
  | none =>
      rw [hfind] at hfits
      refine ⟨hkey, fun u => ?_, fun m hm hid => ?_⟩
      · rw [mem_join]
        constructor
        · rintro (hq | hq | hq)
          · obtain ⟨c, hc, hid⟩ := h.participant _ hq
            exact absurd hid (hfits c hc)
          · exact .inl (congrArg ConversationParticipant.userId hq)
          · exact .inr (congrArg ConversationParticipant.userId hq)
        · rintro (rfl | rfl) <;> simp
      · obtain ⟨c, hc, hid'⟩ := h.message m hm
        exact absurd (hid'.trans hid) (hfits c hc)
  | some c =>
      rw [hfind] at hfits
      obtain ⟨a', b', -, hbetween⟩ := h.between c (Table.mem_of_find? hfind)
      have hpair : s(a', b') = s(a, b) :=
        hbetween.pair_eq ((Table.key_of_find? hfind).trans hkey)
      refine ⟨hkey, fun u => ?_, fun m hm hid => ?_⟩
      · have hold : (⟨row.id, u⟩ : ConversationParticipant) ∈ s.participants ↔ u = a ∨ u = b := by
          rw [← hfits, hbetween.participants, ← mem_pair, hpair, mem_pair]
        rw [mem_join, hold]
        simp
      · exact (hbetween.messages m hm (hid.trans hfits.symm)).trans hpair

/-- Opening a conversation for two users keeps the others as they are. -/
theorem Paired.join (h : Paired s) (hfits : Fits s row) (hab : a ≠ b)
    (hkey : row.directKey = getDirectKey a.text b.text) : Paired (s.join row a b) := by
  have hmem : ∀ c, c ∈ (s.join row a b).conversations ↔
      c = row ∨ (c ∈ s.conversations ∧ c.directKey ≠ row.directKey) := fun _ => Table.mem_put
  have hstays : ∀ c ∈ s.conversations, ∃ c' ∈ (s.join row a b).conversations, c'.id = c.id := by
    intro c hc
    by_cases hkey : c.directKey = row.directKey
    · refine ⟨row, (hmem _).2 (.inl rfl), ?_⟩
      have hfind : s.conversations.find? row.directKey = some c := by
        rw [← hkey]
        exact Table.find?_key hc
      unfold Fits at hfits
      rw [hfind] at hfits
      exact hfits.symm
    · exact ⟨c, (hmem _).2 (.inr ⟨hc, hkey⟩), rfl⟩
  refine ⟨fun c hc d hd hid => ?_, fun c hc => ?_, fun q hq => ?_, fun m hm => ?_⟩
  · rcases (hmem _).1 hc with rfl | ⟨hcold, hck⟩
    · rcases (hmem _).1 hd with rfl | ⟨hdold, hdk⟩
      · rfl
      · exact absurd hid.symm (hfits.ne h hdold hdk)
    · rcases (hmem _).1 hd with rfl | ⟨hdold, -⟩
      · exact absurd hid (hfits.ne h hcold hck)
      · exact h.ids c hcold d hdold hid
  · rcases (hmem _).1 hc with rfl | ⟨hc, hck⟩
    · exact ⟨a, b, hab, hfits.between h hkey⟩
    · obtain ⟨a', b', hne, hbetween⟩ := h.between c hc
      refine ⟨a', b', hne, hbetween.key, fun u => ?_, hbetween.messages⟩
      rw [mem_join, ← hbetween.participants]
      simp [hfits.ne h hc hck]
  · rcases mem_join.1 hq with hq | rfl | rfl
    · obtain ⟨c, hc, hid⟩ := h.participant q hq
      obtain ⟨c', hc', hid'⟩ := hstays c hc
      exact ⟨c', hc', hid'.trans hid⟩
    · exact ⟨row, (hmem _).2 (.inl rfl), rfl⟩
    · exact ⟨row, (hmem _).2 (.inl rfl), rfl⟩
  · obtain ⟨c, hc, hid⟩ := h.message m hm
    obtain ⟨c', hc', hid'⟩ := hstays c hc
    exact ⟨c', hc', hid'.trans hid⟩

/-- A message between the users of its conversation. -/
theorem Paired.message_insert (h : Paired s) {m : Message} (hc : c ∈ s.conversations)
    (hbetween : Between s c a b) (hid : m.conversationId = c.id)
    (hpair : s(m.senderId, m.recipientId) = s(a, b)) :
    Paired { s with messages := s.messages.insert m } := by
  refine ⟨h.ids, fun d hd => ?_, h.participant, fun m' hm' => ?_⟩
  · obtain ⟨a', b', hne, hbetween'⟩ := h.between d hd
    refine ⟨a', b', hne, hbetween'.key, hbetween'.participants, fun m' hm' hid' => ?_⟩
    rcases Table.mem_of_mem_insert hm' with hm' | rfl
    · exact hbetween'.messages m' hm' hid'
    · obtain rfl := h.ids c hc d hd (hid.symm.trans hid')
      exact hpair.trans (hbetween'.pair_eq hbetween.key).symm
  · rcases Table.mem_of_mem_insert hm' with hm' | rfl
    · exact h.message m' hm'
    · exact ⟨c, hc, hid.symm⟩

end Join

/-! ## What a transaction of `send` has done -/

abbrev opened (a b : UserId) (now : Nat) (row : Conversation) : Ev :=
  ⟨.conversationUpsert (getDirectKey a.text b.text) now, row⟩

abbrev found (a b : UserId) (ids : List Id) : Ev :=
  ⟨.conversationSelect (getDirectKey a.text b.text), ids⟩

abbrev joined (a b : UserId) (id : Id) : Ev := ⟨.participantsInsert id [a, b], ()⟩

abbrev posted (data : MessageCreate) (id : Id) : Ev := ⟨.messageInsert data, data.row id⟩

/-- The statement stores an attachment. -/
def Attaches : Stmt → Prop
  | .saveMessageAttachment .. => True
  | .messageAttachmentCreate .. => True
  | _ => False

/-- The transaction is complete, but for attachments. -/
inductive Posted (a b : UserId) : List Ev → Prop
  | intro (now : Nat) (row : Conversation) (id : Id) (ids : List Id) (data : MessageCreate)
      (messageId : Id) (es : List Ev) :
      data.conversationId = id → data.senderId = a → data.recipientId = b →
      (∀ e ∈ es, Attaches e.stmt) →
      Posted a b (opened a b now row :: found a b (id :: ids) :: joined a b id ::
        posted data messageId :: es)

theorem Posted.attach {a b : UserId} {es es' : List Ev} (h : Posted a b es)
    (hes : ∀ e ∈ es', Attaches e.stmt) : Posted a b (es ++ es') := by
  obtain ⟨now, row, id, ids, data, messageId, es, hid, ha, hb, hold⟩ := h
  refine .intro now row id ids data messageId (es ++ es') hid ha hb fun e he => ?_
  rcases List.mem_append.1 he with he | he
  · exact hold e he
  · exact hes e he

/-- How far a transaction between `a` and `b` has come. -/
inductive Draft (a b : UserId) : List Ev → Prop
  | opened (now : Nat) (row : Conversation) : Draft a b [opened a b now row]
  | found (now : Nat) (row : Conversation) (ids : List Id) :
      Draft a b [Messages.opened a b now row, found a b ids]
  | joined (now : Nat) (row : Conversation) (id : Id) (ids : List Id) :
      Draft a b [Messages.opened a b now row, Messages.found a b (id :: ids), joined a b id]
  | posted (es : List Ev) : Posted a b es → Draft a b es

/-- Outside a transaction nothing is written; a transaction is one between two users. -/
def guards : Guards interface Op where
  stmt l q := match l.tx with
    | none => ∀ ans, writes q ans = []
    | some t => ∃ a b, a ≠ b ∧ ∀ ans, model.Possible q ans → Draft a b (t.events ++ [⟨q, ans⟩])
  commit l := ∃ a b, a ≠ b ∧ Posted a b l.pending

theorem only_perform {P : Stmt → Prop} {q : Stmt} :
    @Prog.Only interface Err (no_index (Ans q)) P (perform q) ↔ P q :=
  @only_query interface Err P .failure q

theorem only_attach (messageId : Id) (files : List File) :
    (attach messageId files).Only Attaches := by
  induction files with
  | nil => trivial
  | cons file files ih =>
      refine Only.handle (only_perform.2 trivial) (fun saved => ?_) fun _ => trivial
      refine Only.handle (only_perform.2 trivial) (fun attachment => ?_) fun _ => trivial
      exact ih.handle (fun _ => trivial) fun _ => trivial

@[simp] theorem conforms_perform {q : Stmt} {Q : Log → Ans q → Prop} {E : Log → Err → Prop} {l : Log}
    {G : Guards interface Op} :
    @Prog.Conforms interface model Err (no_index (Ans q)) Op G (perform q) Q E l ↔
      G.stmt l q ∧ (∀ f, E l (.failure f)) ∧ ∀ a, model.Possible q a → Q (l.push ⟨q, a⟩) a :=
  Iff.rfl

theorem message_of_possible {data : MessageCreate} {message : Message}
    (h : model.Possible (.messageInsert data) message) : ∃ id, message = data.row id := by
  obtain ⟨c, s, hexec⟩ := h
  cases c with
  | nat id =>
      simp only [exec] at hexec
      split at hexec
      · cases hexec
      · exact ⟨id, (Option.some.inj hexec).symm⟩
  | stored url kind => cases hexec

theorem post_conforms {senderId recipientId : UserId} (hne : senderId ≠ recipientId)
    (subject : Option String) (body : String) (now : Nat) (files : List File) {o : Op}
    {d : List Ev} {Q : Log → SentMessage → Prop} {E : Log → Err → Prop}
    (hQ : ∀ es a, Posted senderId recipientId es → Q ⟨o, d, some ⟨.readCommitted, es⟩⟩ a)
    (hE : ∀ l e, E l e) :
    (post senderId recipientId subject body now files).Conforms model guards Q E
      ⟨o, d, some ⟨.readCommitted, []⟩⟩ := by
  have hdraft : ∀ {es : List Ev} {q : Stmt}, (∀ ans, model.Possible q ans →
      Draft senderId recipientId (es ++ [⟨q, ans⟩])) →
      guards.stmt ⟨o, d, some ⟨.readCommitted, es⟩⟩ q :=
    fun h => ⟨senderId, recipientId, hne, h⟩
  simp only [post, bind_eq, pure_eq, throw_eq, conforms_handle, conforms_perform, conforms_fail,
    Trace.push_inside, List.nil_append]
  refine ⟨hdraft fun row _ => .opened now row, fun _ => hE _ _, fun row _ =>
    ⟨hdraft fun ids _ => .found now row ids, fun _ => hE _ _, fun ids _ => ?_⟩⟩
  cases ids with
  | nil => exact hE _ _
  | cons id ids =>
      simp only [conforms_handle, conforms_perform, conforms_fail, Trace.push_inside,
        List.cons_append, List.nil_append]
      refine ⟨hdraft fun _ _ => .joined now row id ids, fun _ => hE _ _, fun _ _ =>
        ⟨hdraft fun message hmessage => ?_, fun _ => hE _ _, fun message hmessage => ?_⟩⟩
      · obtain ⟨messageId, rfl⟩ := message_of_possible hmessage
        exact .posted _ (.intro now row id ids _ messageId [] rfl rfl rfl (by simp))
      · obtain ⟨messageId, rfl⟩ := message_of_possible hmessage
        have hposted : Posted senderId recipientId _ :=
          .intro now row id ids
            { conversationId := id, senderId, recipientId, subject, body, createdAt := now }
            messageId [] rfl rfl rfl (by simp)
        refine (only_attach _ files).conforms_inside (fun es hes q hq => hdraft fun ans _ => ?_)
          (fun es hes _ => hQ _ _ (hposted.attach hes)) fun _ _ _ => hE _ _
        refine .posted _ ((hposted.attach hes).attach fun e he => ?_)
        exact List.mem_singleton.1 he ▸ hq

/-- **Every call keeps to the guards.** -/
theorem send_conforms (toLowerCase : String → String) (o : Op) :
    (program toLowerCase o).Conforms model guards (fun _ _ => True) (fun _ _ => True)
      (.start o) := by
  simp only [program, send, bind_eq, pure_eq, throw_eq, conforms_handle, conforms_perform,
    conforms_ite, conforms_fail, Trace.start_eq, Trace.push_outside]
  refine ⟨fun _ => trivial, fun _ => ⟨fun _ => rfl, fun _ => trivial, fun recipient _ => ?_⟩⟩
  cases recipient with
  | none => trivial
  | some recipientId =>
      simp only [conforms_ite, conforms_fail, conforms_handle, conforms_perform,
        Trace.push_outside]
      refine ⟨fun _ => trivial, fun hne => ⟨fun _ => rfl, fun _ => trivial, fun now _ => ?_⟩⟩
      simp only [conforms_transaction, Trace.openTx_mk]
      refine ⟨trivial, post_conforms (Ne.symm hne) _ _ _ _ (fun es message hes => ?_) fun _ _ => ?_⟩
      · exact ⟨by simp, ⟨_, _, Ne.symm hne, hes⟩, fun _ => trivial, fun _ => rfl, fun _ => trivial,
          fun _ _ => ⟨fun _ => rfl, fun _ => trivial, fun _ _ => trivial⟩⟩
      · trivial

/-! ## What an open transaction knows -/

/-- The conversation that was opened still fits in, and its identifier is the one that was read. -/
structure Agreed (s : World) (l : Log) : Prop where
  opened : ∀ a b now row rest, l.pending = opened a b now row :: rest →
    row.directKey = getDirectKey a.text b.text ∧ Fits s row
  found : ∀ a b now row ids rest, l.pending = Messages.opened a b now row :: found a b ids :: rest →
    ids = [row.id]

theorem agreed_of_nil {s : World} {l : Log} (h : l.pending = []) : Agreed s l := by
  constructor <;> intros <;> simp_all

theorem upsert_of_exec {s : World} {key : CodeUnits} {now : Nat} {c : Choice} {row : Conversation}
    (h : exec (.conversationUpsert key now) c s = some row) : row.directKey = key ∧ Fits s row := by
  cases c with
  | stored url kind => cases h
  | nat id =>
      simp only [exec] at h
      unfold Fits
      split at h
      · next d hd =>
          obtain rfl := Option.some.inj h
          have hkey : d.directKey = key := Table.key_of_find? hd
          refine ⟨hkey, ?_⟩
          simp only [hkey, hd]
      · next hnone =>
          split at h
          · cases h
          · next hfree =>
              obtain rfl := Option.some.inj h
              refine ⟨rfl, ?_⟩
              rw [hnone]
              simpa [Table.mem_def] using hfree

theorem Agreed.push {s : World} {l : Log} {x : Tx interface} {q : Stmt} {a : Ans q} {c : Choice}
    (h : Agreed s l) (htx : l.tx = some x) (hexec : exec q c (l.view model s) = some a) :
    Agreed s (l.push ⟨q, a⟩) := by
  have hpending : (l.push ⟨q, a⟩).pending = l.pending ++ [⟨q, a⟩] := by
    simp [Trace.push_of_some htx, Trace.pending, htx]
  refine ⟨fun u v now row rest heq => ?_, fun u v now row ids rest heq => ?_⟩
  · rw [hpending] at heq
    cases hl : l.pending with
    | nil =>
        rw [hl] at heq
        obtain ⟨heq, -⟩ := List.cons.inj heq
        obtain ⟨rfl, heq⟩ := Event.mk.inj heq
        obtain rfl := eq_of_heq heq
        rw [Trace.view, hl] at hexec
        exact upsert_of_exec hexec
    | cons e es =>
        rw [hl] at heq
        obtain ⟨rfl, -⟩ := List.cons.inj heq
        exact h.opened u v now row es hl
  · rw [hpending] at heq
    cases hl : l.pending with
    | nil => simp [hl] at heq
    | cons e es =>
        rw [hl] at heq
        obtain ⟨rfl, htail⟩ := List.cons.inj heq
        cases es with
        | nil =>
            obtain ⟨hlast, -⟩ := List.cons.inj htail
            obtain ⟨rfl, hans⟩ := Event.mk.inj hlast
            obtain rfl := eq_of_heq hans
            -- The statement reads what the transaction has written.
            have hkey := (h.opened u v now row [] hl).1
            have hput : (s.conversations.put row).find? (getDirectKey u.text v.text) = some row := by
              rw [← hkey]
              exact (Table.find?_put ..).trans (if_pos rfl)
            have hview : (l.view model s).conversations = s.conversations.put row := by
              rw [Trace.view, hl]
              rfl
            have hans := Option.some.inj hexec
            rw [hview, hput] at hans
            exact hans.symm
        | cons e es =>
            obtain ⟨rfl, -⟩ := List.cons.inj htail
            exact h.found u v now row ids es hl

/-- Opening another conversation leaves room for this one. -/
theorem Fits.put {s s' : World} {row other : Conversation} (h : Fits s row)
    (hs : s'.conversations = s.conversations.put other) (hkey : row.directKey ≠ other.directKey)
    (hid : row.id ≠ other.id) : Fits s' row := by
  have hfind : s'.conversations.find? row.directKey = s.conversations.find? row.directKey := by
    rw [hs]
    exact (Table.find?_put ..).trans (if_neg hkey)
  unfold Fits at h ⊢
  rw [hfind]
  cases hrow : s.conversations.find? row.directKey with
  | some c => rwa [hrow] at h
  | none =>
      rw [hrow] at h
      intro c hc
      rw [hs] at hc
      rcases Table.mem_put.1 hc with rfl | ⟨hc, -⟩
      · exact Ne.symm hid
      · exact h c hc

theorem replay_attaches {es : List Ev} (h : ∀ e ∈ es, Attaches e.stmt) (s : World) :
    ∃ attachments, model.replay es s = { s with attachments } := by
  refine @Model.applyAll_keeps _ model (fun t => ∃ attachments, t = { s with attachments })
    (model.writesOf es) (fun w hw t ht => ?_) s ⟨s.attachments, rfl⟩
  obtain ⟨⟨q, a⟩, he, hw⟩ := model.mem_writesOf.1 hw
  obtain ⟨attachments, rfl⟩ := ht
  have hq := h _ he
  cases q with
  | saveMessageAttachment file messageId => cases hw
  | messageAttachmentCreate messageId saved =>
      obtain rfl := List.mem_singleton.1 hw
      exact ⟨_, rfl⟩
  | _ => exact hq.elim

/-- What a complete transaction has done: its conversation is the one it has opened. -/
theorem Posted.view {a b : UserId} {l : Log} {s : World} (h : Posted a b l.pending)
    (hl : Agreed s l) : ∃ now row rest data id attachments, l.pending = opened a b now row :: rest ∧
      posted data id ∈ l.pending ∧ data.conversationId = row.id ∧
      s(data.senderId, data.recipientId) = s(a, b) ∧
      l.view model s =
        { s.join row a b with messages := s.messages.insert (data.row id), attachments } := by
  generalize hp : l.pending = pending at h
  obtain ⟨now, row, id, ids, data, messageId, es, hid, ha, hb, hes⟩ := h
  obtain ⟨rfl, -⟩ := List.cons.inj (hl.found a b now row _ _ hp)
  obtain ⟨attachments, hview⟩ := replay_attaches hes
    { s.join row a b with messages := s.messages.insert (data.row messageId) }
  refine ⟨now, row, _, data, messageId, attachments, rfl, by simp, hid, by rw [ha, hb], ?_⟩
  rw [Trace.view, hp]
  exact (model.replay_append [_, _, _, _] es s).trans hview

/-- A complete transaction leaves every conversation with its two users. -/
theorem Posted.paired {a b : UserId} {l : Log} {s : World} (h : Posted a b l.pending)
    (hl : Agreed s l) (hab : a ≠ b) (hs : Paired s) : Paired (l.view model s) := by
  obtain ⟨now, row, rest, data, id, attachments, hpending, -, hid, hpair, hview⟩ := h.view hl
  obtain ⟨hkey, hfits⟩ := hl.opened a b now row rest hpending
  have hposted : Paired { s.join row a b with messages := s.messages.insert (data.row id) } :=
    (hs.join hfits hab hkey).message_insert (Table.mem_put.2 (.inl rfl)) (hfits.between hs hkey) hid
      hpair
  rw [hview]
  exact hposted.of_eq rfl rfl rfl

/-- A call that is still in its transaction does not notice: it has locked what it has opened. -/
theorem Posted.agreed {a b : UserId} {l u : Log} {s : World} (h : Posted a b l.pending)
    (hl : Agreed s l) (hu : Agreed s u) (hfree : u.Free model (l.held model)) :
    Agreed (l.view model s) u := by
  obtain ⟨now, row, rest, data, id, attachments, hpending, -, -, -, hview⟩ := h.view hl
  refine ⟨fun c d now' row' rest' hp => ?_, hu.found⟩
  obtain ⟨hkey, hfits⟩ := hu.opened c d now' row' rest' hp
  have hmine : ∀ w ∈ [Write.conversationId row.id, .conversation row], w ∈ l.held model :=
    fun w hw => model.mem_writesOf.2 ⟨opened a b now row, by simp [hpending], hw⟩
  have htheirs : opened c d now' row' ∈ u.pending := by simp [hp]
  refine ⟨hkey, hfits.put (congrArg World.conversations hview) (fun heq => ?_) fun heq => ?_⟩
  · exact hfree.of_mem (hmine (.conversation row) (by simp)) htheirs
      (v := .conversation row') (by simp [writes]) rfl (congrArg (some <| Key.directKey ·) heq)
  · exact hfree.of_mem (hmine (.conversationId row.id) (by simp)) htheirs
      (v := .conversationId row'.id) (by simp [writes]) rfl (congrArg (some <| Key.conversation ·) heq)

theorem paired_rules : @Rules interface model Op Err Reply guards anyStep Paired Agreed
    (fun _ _ => True) where
  symm _ _ _ := trivial
  start _ _ _ _ := agreed_of_nil rfl
  start_pair _ _ _ _ _ := trivial
  env _ _ _ h := ⟨h.of_eq rfl rfl rfl, fun _ hl => ⟨hl.opened, hl.found⟩⟩
  drop _ _ _ := agreed_of_nil rfl
  drop_pair _ _ _ := trivial
  openTx _ _ _ _ _ := agreed_of_nil rfl
  openTx_pair _ _ _ _ _ := trivial
  call p i c t q a h hcall htx := by
    have hwrites : writes q a = [] := by
      have hguard := hcall.guard
      simp only [guards, htx] at hguard
      exact hguard a
    have hsame : model.applyAll (model.writes q a) p.db = p.db := by
      rw [show model.writes q a = [] from hwrites, Model.applyAll_nil]
    rw [hsame]
    exact ⟨h.db, agreed_of_nil (by simp [Trace.push_of_none htx, Trace.pending, htx]),
      fun u hu => ⟨h.other hu, trivial⟩⟩
  callTx p i c t q a x h hcall htx :=
    ⟨(h.thread i t hcall.here).push htx hcall.exec, fun _ _ => trivial⟩
  commit p i c t x h hcommit := by
    obtain ⟨a, b, hab, hposted⟩ := hcommit.guard
    have hl := h.thread i t hcommit.here
    exact ⟨hposted.paired hl hab h.db, agreed_of_nil rfl, fun u hu =>
      ⟨hposted.agreed hl (h.other hu) (hcommit.free u hu), trivial⟩⟩

/-! ## Every run -/

theorem paired_silent (users : Table User) : Paired (World.silent users) := by
  constructor <;> intro _ h <;> cases h

/-- At most one conversation for each pair, which is between these two. -/
structure OneForEachPair (s : World) : Prop where
  between : ∀ c ∈ s.conversations, ∃ a b, a ≠ b ∧ Between s c a b
  unique : ∀ c ∈ s.conversations, ∀ d ∈ s.conversations, ∀ a b : UserId,
    (∀ u, (⟨c.id, u⟩ : ConversationParticipant) ∈ s.participants ↔ u = a ∨ u = b) →
    (∀ u, (⟨d.id, u⟩ : ConversationParticipant) ∈ s.participants ↔ u = a ∨ u = b) → c = d

theorem Paired.unique {s : World} (h : Paired s) : OneForEachPair s := by
  -- The users that take part in a conversation are the users in its key.
  have hpair : ∀ c ∈ s.conversations, ∀ a b : UserId,
      (∀ u, (⟨c.id, u⟩ : ConversationParticipant) ∈ s.participants ↔ u = a ∨ u = b) →
      c.directKey = getDirectKey a.text b.text := by
    intro c hc a b hab
    obtain ⟨a', b', -, hbetween⟩ := h.between c hc
    have heq : s(a', b') = s(a, b) := by
      refine Sym2.ext fun u => ?_
      rw [mem_pair, mem_pair, ← hab, hbetween.participants]
    rw [hbetween.key]
    rcases Sym2.eq_iff.1 heq with ⟨rfl, rfl⟩ | ⟨rfl, rfl⟩
    · rfl
    · exact getDirectKey_comm _ _
  refine ⟨h.between, fun c hc d hd a b hca hda => ?_⟩
  exact Table.eq_of_key_eq hc hd ((hpair c hc a b hca).trans (hpair d hd a b hda).symm)

/-- **One conversation for each pair.** In every state that calls of `send` reach, in any order of
    their steps, there is at most one conversation between two users, and it is between two different
    users: they are its participants, and each message in it goes from one of them to the other. The
    key of a pair does not depend on the order of the two, and tells the pairs apart. -/
theorem one_conversation_per_pair (toLowerCase : String → String) (users : Table User)
    {p : Platform} (hrun : Run (program toLowerCase) anyStep (idle (World.silent users)) p) :
    OneForEachPair p.db ∧
      (∀ a b : CodeUnits, getDirectKey a b = getDirectKey b a) ∧
      ∀ a b c d : UserId, getDirectKey a.text b.text = getDirectKey c.text d.text →
        s(a, b) = s(c, d) :=
  ⟨(paired_rules.holds (fun _ o _ => send_conforms toLowerCase o) (paired_silent users)
      hrun).2.db.unique,
    getDirectKey_comm, fun _ _ _ _ => getDirectKey_inj⟩

/-- Two users. -/
def alice : UserId := ⟨[97], by decide⟩

def bob : UserId := ⟨[98], by decide⟩

def twoUsers : Table User := .ofList [⟨alice, "alice@get.mg"⟩, ⟨bob, "bob@get.mg"⟩]

/-- The two write to each other at the same time; the second waits for the first. -/
def bothWays : List (Step model Op) :=
  [.spawn ⟨alice, ⟨"bob@get.mg", none, "Bonjour"⟩, []⟩,
    .spawn ⟨bob, ⟨" alice@get.mg", some "Re", "Salut"⟩, []⟩,
    .exec 0 (.nat 0), .exec 1 (.nat 0), .exec 0 (.nat 5), .exec 1 (.nat 6), .exec 0 (.nat 0),
    .exec 1 (.nat 0), .exec 0 (.nat 10), .exec 0 (.nat 0), .exec 0 (.nat 0), .exec 0 (.nat 20),
    .exec 0 (.nat 0), .exec 1 (.nat 11), .exec 1 (.nat 0), .exec 1 (.nat 0), .exec 1 (.nat 21),
    .exec 1 (.nat 0)]

/-- Two messages, one conversation. -/
theorem one_conversation_per_pair_both_ways :
    ∃ p : Platform, Run (program fun email => email) anyStep (idle (World.silent twoUsers)) p ∧
      p.db.conversations.rows.length = 1 ∧ p.db.messages.rows.length = 2 ∧ OneForEachPair p.db := by
  have hplay : ((idle (World.silent twoUsers) : Platform).play (program fun email => email) anyStep
      bothWays).any (fun p =>
        p.db.conversations.rows.length = 1 ∧ p.db.messages.rows.length = 2) = true := by
    decide +kernel
  obtain ⟨p, hrun, hp⟩ := exists_run_of_play hplay
  obtain ⟨hone, htwo⟩ := of_decide_eq_true hp
  exact ⟨p, hrun, hone, htwo, (one_conversation_per_pair _ _ hrun).1⟩

end GetPlatform.Messages
