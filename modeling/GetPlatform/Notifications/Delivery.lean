import GetPlatform.Notifications.NotificationService
import GetPlatform.Order.Distinct

set_option autoImplicit false

/-! # Who is notified

A batch notifies the users who have enabled the channel (`sendInAppBatch_delivers`); an announcement
notifies everybody it is for, with a title and a body that are trimmed (`createAndNotify_delivers`).
The two come to the same exactly when neither makes a difference (`same_delivery_iff`). -/

namespace GetPlatform.Notifications

open Prog

variable {dispatch : SendNotificationDto → User → Except String ProviderResult}

/-! ## What is delivered -/

/-- The user has the channel enabled; a user without preferences has the defaults. -/
def World.inAppEnabled (s : World) (userId : Id) : Bool :=
  ((s.preferences.find? userId).getD (.default userId)).inAppEnabled

/-- The notifications of `s'` that `s` does not have. -/
def newNotifications (s s' : World) : List Notification :=
  s'.notifications.rows.filter fun n => !s.notifications.contains n.id

/-- A notification in the app that says this, and that was sent. -/
structure Notification.Carries (n : Notification) (content : Content) : Prop where
  type : n.type = .IN_APP
  title : n.title = content.title
  body : n.body = content.body
  sentAt : n.sentAt.isSome = true
  failureReason : n.failureReason = none

/-- From `s` to `s'`, these notifications have been added: one for each of the users, in this order. -/
structure Delivered (s s' : World) (content : Content) (userIds : List Id) (status : String)
    (rows : List Notification) : Prop where
  added : s'.notifications.rows.Perm (s.notifications.rows ++ rows)
  users : rows.map (·.userId) = userIds
  content : ∀ n ∈ rows, n.Carries content
  status : ∀ n ∈ rows, n.status = status

theorem Delivered.append {s s₁ s₂ : World} {content : Content} {userIds userIds' : List Id}
    {status : String} {rows rows' : List Notification}
    (h : Delivered s s₁ content userIds status rows)
    (h' : Delivered s₁ s₂ content userIds' status rows') :
    Delivered s s₂ content (userIds ++ userIds') status (rows ++ rows') where
  added := by
    rw [← List.append_assoc]
    exact h'.added.trans (h.added.append_right _)
  users := by rw [List.map_append, h.users, h'.users]
  content := by
    intro n hn
    rcases List.mem_append.1 hn with hn | hn
    · exact h.content n hn
    · exact h'.content n hn
  status := by
    intro n hn
    rcases List.mem_append.1 hn with hn | hn
    · exact h.status n hn
    · exact h'.status n hn

theorem Delivered.perm {s s' : World} {content : Content} {userIds : List Id}
    {status : String} {rows : List Notification} (h : Delivered s s' content userIds status rows) :
    (newNotifications s s').Perm rows :=
  Table.filter_new_perm h.added

/-! ## A batch -/

section Batch

variable {s now : World} {content : Content} {userId : Id}

/-- What the messages to other users leave alone. -/
structure Same (s now : World) : Prop where
  users : now.users = s.users
  enabled : ∀ userId, now.inAppEnabled userId = s.inAppEnabled userId

/-- The id of a new notification is new. -/
def Fresh : Write → World → Prop
  | .notification row, s => s.notifications.contains row.id = false
  | _, _ => True

def Write.notification? : Write → Option Notification
  | .notification row => some row
  | _ => none

theorem rows_applyAll {made : List Write} (h : model.Guarded Fresh made s) :
    (model.applyAll made s).notifications.rows =
      s.notifications.rows ++ made.filterMap Write.notification? := by
  induction made generalizing s with
  | nil => exact (List.append_nil _).symm
  | cons w made ih =>
    obtain ⟨hw, hmade⟩ := h
    rw [Model.applyAll_cons, ih hmade]
    cases w with
    | notification row =>
      show (s.notifications.insert row).rows ++ _ = _
      rw [Table.rows_insert hw, List.append_assoc]
      rfl
    | preference row => rfl
    | announcement row => rfl
    | recipient row => rfl

theorem same_preference {row : NotificationPreference}
    (hrow : row = (s.preferences.find? userId).getD (.default userId)) :
    Same s (World.apply (.preference row) s) := by
  refine ⟨rfl, fun u => ?_⟩
  have hkey : Keyed.key row = userId := by
    cases hfind : s.preferences.find? userId with
    | none =>
      rw [hfind] at hrow
      exact congrArg Keyed.key hrow
    | some found =>
      rw [hfind] at hrow
      exact (congrArg Keyed.key hrow).trans (Table.key_of_find? hfind)
  show (((s.preferences.put row).find? u).getD _).inAppEnabled = _
  rw [Table.find?_put, hkey]
  by_cases hu : u = userId
  · rw [if_pos hu, hu]
    exact congrArg (·.inAppEnabled) hrow
  · rw [if_neg hu]
    rfl

theorem Same.trans {s' : World} (h : Same s now) (h' : Same now s') : Same s s' :=
  ⟨h'.users.trans h.users, fun u => (h'.enabled u).trans (h.enabled u)⟩

theorem exists_newNotificationId (s : World) (taken : List Id) :
    ∃ id, s.newNotificationId id = true ∧ id ∉ taken := by
  obtain ⟨id, hnew, htaken⟩ := s.notifications.exists_fresh
    (s.announcementRecipients.rows.map (·.notificationId) ++ taken)
  rw [List.mem_append, not_or] at htaken
  refine ⟨id, decide_eq_true ⟨hnew, fun r hr heq => htaken.1 ?_⟩, htaken.2⟩
  exact List.mem_map.2 ⟨r, hr, heq⟩

/-- What a user is sent. -/
structure Sent (s : World) (content : Content) (userId : Id) (r : Id × SendResult)
    (made : List Write) : Prop where
  user : r.1 = userId
  enabled : s.inAppEnabled userId = true → ∃ n, made.filterMap Write.notification? = [n] ∧
    n.userId = userId ∧ n.Carries content ∧ n.status = "STORED" ∧ r.2.success = true ∧
      r.2.notificationId = some n.id
  disabled : s.inAppEnabled userId = false →
    made.filterMap Write.notification? = [] ∧ r.2.success = false

theorem wpAmid_sendTo (hexists : s.users.contains userId = true) :
    (sendTo dispatch content userId).wpAmid model (Same s) Fresh (Sent s content userId) [] := by
  obtain ⟨user, huser⟩ := Option.isSome_iff_exists.1 hexists
  intro now hnow
  refine ⟨⟨.ids [], _, rfl⟩, fun c found hfound => ⟨hnow, trivial, ?_⟩⟩
  obtain rfl : found = some user := by
    rw [← huser, ← hnow.users]
    exact (Option.some.inj hfound).symm
  intro now hnow
  refine ⟨⟨.ids [], _, rfl⟩, fun c row hrow => ⟨?_, ⟨trivial, trivial⟩, ?_⟩⟩
  · exact hnow.trans (same_preference (Option.some.inj hrow).symm)
  have henabled : row.inAppEnabled = s.inAppEnabled userId := by
    rw [← hnow.enabled, ← Option.some.inj hrow]
    rfl
  show wpAmid model _ _ (Prog.handle (if row.inAppEnabled = true then _ else _) _ _) _ _
  rw [henabled]
  cases hon : s.inAppEnabled userId with
  | false => exact ⟨rfl, by simp [hon], fun _ => ⟨rfl, rfl⟩⟩
  | true =>
    intro now hnow
    refine ⟨⟨.date ⟨0⟩, _, rfl⟩, fun c sentAt hsentAt => ⟨hnow, trivial, ?_⟩⟩
    intro now hnow
    constructor
    · obtain ⟨id, hid, -⟩ := exists_newNotificationId now []
      refine ⟨.id id, _, if_pos ⟨hid, ?_⟩⟩
      rw [hnow.users]
      exact hexists
    · intro c n hn
      cases c with
      | date d => exact absurd hn nofun
      | ids l => exact absurd hn nofun
      | id id =>
        obtain ⟨⟨hnew, -⟩, hrow⟩ := Option.ite_none_right_eq_some.1 hn
        obtain rfl := Option.some.inj hrow
        refine ⟨hnow.trans ⟨rfl, fun _ => rfl⟩, ⟨(of_decide_eq_true hnew).1, trivial⟩, rfl, ?_,
          by simp [hon]⟩
        intro _
        exact ⟨_, rfl, rfl, ⟨rfl, rfl, rfl, rfl, rfl⟩, rfl, rfl, rfl⟩

/-- A notification with its user, as a pair of the result. -/
def Notification.pair (n : Notification) : Id × Id := (n.userId, n.id)

/-- The notifications that have been written on the way to these results. -/
def writtenBy (ended : List (Result model Id (Id × SendResult))) : List Notification :=
  ended.flatMap fun e => e.made.filterMap Write.notification?

theorem writtenBy_sent {ended : List (Result model Id (Id × SendResult))}
    (h : ∀ e ∈ ended, Sent s content e.item e.result e.made) :
    (writtenBy ended).map (·.userId) = (ended.map (·.item)).filter s.inAppEnabled ∧
      (∀ n ∈ writtenBy ended, n.Carries content ∧ n.status = "STORED") ∧
      recipientsOf (ended.map (·.result)) = (writtenBy ended).map Notification.pair := by
  induction ended with
  | nil => exact ⟨rfl, nofun, rfl⟩
  | cons e ended ih =>
    obtain ⟨husers, hcarries, hpairs⟩ := ih fun e he => h e (List.mem_cons_of_mem _ he)
    have he := h e (by simp)
    obtain ⟨item, ⟨userId, result⟩, made⟩ := e
    obtain rfl : userId = item := he.user
    have hwritten : writtenBy (⟨userId, (userId, result), made⟩ :: ended) =
        made.filterMap Write.notification? ++ writtenBy ended := rfl
    have hrecipients : recipientsOf (((userId, result) : Id × SendResult) :: ended.map (·.result)) =
        (if result.success then result.notificationId.map fun id => (userId, id) else none).toList ++
          recipientsOf (ended.map (·.result)) := by
      unfold recipientsOf
      rw [List.filterMap_cons]
      dsimp only
      split <;> rename_i hpair <;> rw [hpair] <;> rfl
    rw [List.map_cons, List.map_cons, hrecipients, hwritten, List.map_append, List.map_append,
      husers, hpairs]
    cases hon : s.inAppEnabled userId with
    | false =>
      obtain ⟨hnone, hfail⟩ := he.disabled hon
      dsimp only at hnone hfail
      rw [hnone, hfail, List.filter_cons_of_neg (by simp [hon])]
      exact ⟨rfl, hcarries, rfl⟩
    | true =>
      obtain ⟨n, hn, huser, hcontent, hstatus, hsuccess, hid⟩ := he.enabled hon
      dsimp only at hn huser hsuccess hid
      rw [hn, hsuccess, hid, List.filter_cons_of_pos hon]
      refine ⟨by simp [huser], ?_, by simp [Notification.pair, huser]⟩
      intro m hm
      rcases List.mem_append.1 hm with hm | hm
      · rw [List.mem_singleton.1 hm]
        exact ⟨hcontent, hstatus⟩
      · exact hcarries m hm

/-- The users of a batch are notified, in whatever order their statements come. -/
theorem gathers_delivers {userIds : List Id} {results : List (Id × SendResult)} {s' : World}
    (hexist : ∀ u ∈ userIds, s.users.contains u = true) (hnow : Same s now)
    (hrun : Gathers model (userIds.map (sendTo dispatch content)) now results s') :
    Same s s' ∧ ∃ rows,
      Delivered now s' content (userIds.filter s.inAppEnabled) "STORED" rows ∧
        recipientsOf results = rows.map Notification.pair := by
  obtain ⟨hsame, ended, made, rfl, rfl, hsent, hmade, hguard, rfl⟩ :=
    hrun.amid hnow fun u hu => wpAmid_sendTo (hexist u hu)
  obtain ⟨husers, hcarries, hpairs⟩ := writtenBy_sent hsent
  refine ⟨hsame, writtenBy ended, ⟨?_, husers, fun n hn => (hcarries n hn).1,
    fun n hn => (hcarries n hn).2⟩, hpairs⟩
  rw [rows_applyAll hguard]
  refine List.Perm.append_left _ ((hmade.filterMap _).trans ?_)
  rw [List.filterMap_flatMap]
  rfl

theorem gathersAll_delivers {batches : List (List Id)} {results : List (List (Id × SendResult))}
    {s' : World} (hexist : ∀ batch ∈ batches, ∀ u ∈ batch, s.users.contains u = true)
    (hnow : Same s now)
    (hrun : GathersAll model (batches.map (·.map (sendTo dispatch content))) now results s') :
    ∃ rows, Delivered now s' content (batches.flatten.filter s.inAppEnabled) "STORED" rows ∧
      results.flatMap recipientsOf = rows.map Notification.pair := by
  induction batches generalizing now results with
  | nil =>
    obtain ⟨rfl, rfl⟩ := gathersAll_nil.1 hrun
    exact ⟨[], ⟨by simp, rfl, nofun, nofun⟩, rfl⟩
  | cons batch batches ih =>
    obtain ⟨first, s₁, rest, rfl, hbatch, hrest⟩ := gathersAll_cons.1 hrun
    obtain ⟨hsame, rows, hrows, hpairs⟩ := gathers_delivers (hexist batch (by simp)) hnow hbatch
    obtain ⟨rows', hrows', hpairs'⟩ :=
      ih (fun b hb => hexist b (List.mem_cons_of_mem _ hb)) hsame hrest
    refine ⟨rows ++ rows', ?_, by rw [List.flatMap_cons, hpairs, hpairs', List.map_append]⟩
    rw [List.flatten_cons, List.filter_append]
    exact hrows.append hrows'

theorem flatten_batches (userIds : List Id) : (batches userIds).flatten = userIds := by
  have hall : userIds.length ≤ (userIds.length + batchSize - 1) / batchSize * batchSize := by
    unfold batchSize
    omega
  unfold batches
  rw [← List.flatMap_def, flatMap_page_take, List.take_of_length_le hall]

theorem exists_of_mem_batch {userIds batch : List Id}
    (hexist : ∀ u ∈ userIds, s.users.contains u = true) (hbatch : batch ∈ batches userIds.eraseDups)
    (hu : userId ∈ batch) : s.users.contains userId = true := by
  have hmem := List.mem_flatten.2 ⟨batch, hbatch, hu⟩
  rw [flatten_batches, List.mem_eraseDups] at hmem
  exact hexist userId hmem

theorem sendInAppBatch_delivers {userIds : List Id} {pairs : List (Id × Id)} {s' : World}
    (hexist : ∀ u ∈ userIds, s.users.contains u = true)
    (hrun : SendsInAppBatch dispatch userIds content s pairs s') :
    ∃ rows, Delivered s s' content (userIds.eraseDups.filter s.inAppEnabled) "STORED" rows ∧
      pairs = rows.map Notification.pair := by
  obtain ⟨results, hrun, rfl⟩ := hrun
  have hdelivers := gathersAll_delivers (fun batch hbatch u hu => exists_of_mem_batch hexist hbatch hu)
    ⟨rfl, fun _ => rfl⟩ hrun
  rwa [flatten_batches] at hdelivers

end Batch

/-! ## An announcement -/

section Announcement

variable {s : World}

/-- What the announcement says. -/
def CreateAnnouncementInput.content (input : CreateAnnouncementInput) : Content :=
  ⟨trim input.title, trim input.body⟩

/-- The lines for these notifications. -/
def Announced (announcementId : Id) (s s' : World) (rows : List Notification) : Prop :=
  s'.announcementRecipients.rows =
    s.announcementRecipients.rows ++ rows.map fun n => ⟨announcementId, n.userId, n.id⟩

theorem exists_newNotificationIds (s : World) (count : Nat) :
    ∃ ids : List Id, ids.length = count ∧ ids.Nodup ∧ ∀ id ∈ ids, s.newNotificationId id = true := by
  induction count with
  | zero => exact ⟨[], rfl, List.nodup_nil, nofun⟩
  | succ count ih =>
    obtain ⟨ids, hlength, hnodup, hnew⟩ := ih
    obtain ⟨id, hid, htaken⟩ := exists_newNotificationId s ids
    refine ⟨id :: ids, by rw [List.length_cons, hlength], List.nodup_cons.2 ⟨htaken, hnodup⟩, ?_⟩
    intro i hi
    rcases List.mem_cons.1 hi with rfl | hi
    · exact hid
    · exact hnew i hi

theorem applyAll_notifications (rows : List Notification) (s : World) :
    model.applyAll (rows.map .notification) s =
      { s with notifications := rows.foldl Table.insert s.notifications } := by
  induction rows generalizing s with
  | nil => rfl
  | cons n rows ih => exact ih _

theorem applyAll_recipients (rows : List AnnouncementRecipient) (s : World) :
    model.applyAll (rows.map .recipient) s =
      { s with announcementRecipients := rows.foldl Table.insert s.announcementRecipients } := by
  induction rows generalizing s with
  | nil => rfl
  | cons r rows ih => exact ih _

/-- The notifications of an announcement, once their ids are drawn. -/
def announced (announcement : Announcement) (sentAt : Date) (ids userIds : List Id) :
    List Notification :=
  (ids.zip userIds).map fun (id, userId) =>
    NotificationData.row ⟨userId, .IN_APP, announcement.title, announcement.body, some sentAt, none,
      none⟩ id

section Announced

variable {announcement : Announcement} {sentAt : Date} {ids userIds : List Id}

theorem announced_ids (announcement : Announcement) (sentAt : Date) (hlength : ids.length = userIds.length) :
    (announced announcement sentAt ids userIds).map Keyed.key = ids := by
  unfold announced
  rw [List.map_map]
  exact List.map_fst_zip hlength.le

theorem announced_users (announcement : Announcement) (sentAt : Date) (hlength : ids.length = userIds.length) :
    (announced announcement sentAt ids userIds).map (·.userId) = userIds := by
  unfold announced
  rw [List.map_map]
  exact List.map_snd_zip hlength.ge

theorem announced_carries {n : Notification} (hn : n ∈ announced announcement sentAt ids userIds) :
    n.Carries ⟨announcement.title, announcement.body⟩ ∧ n.status = "SENT" := by
  obtain ⟨⟨id, userId⟩, -, rfl⟩ := List.mem_map.1 hn
  exact ⟨⟨rfl, rfl, rfl, rfl, rfl⟩, rfl⟩

theorem insertable_announced (announcement : Announcement) (sentAt : Date)
    (hlength : ids.length = userIds.length) (hnodup : ids.Nodup)
    (hnew : ∀ id ∈ ids, s.newNotificationId id = true) :
    insertable s.notifications (announced announcement sentAt ids userIds) = true := by
  refine decide_eq_true ⟨by rwa [announced_ids _ _ hlength], fun n hn => ?_⟩
  have hid : Keyed.key n ∈ ids := by
    rw [← announced_ids announcement sentAt hlength]
    exact List.mem_map_of_mem hn
  exact (of_decide_eq_true (hnew _ hid)).1

theorem exec_announced (announcement : Announcement) (sentAt : Date)
    (hlength : ids.length = userIds.length) (hnodup : ids.Nodup)
    (hnew : ∀ id ∈ ids, s.newNotificationId id = true)
    (hexist : ∀ u ∈ userIds, s.users.contains u = true) (c : Choice) :
    exec (.notificationCreateMany ((ids.zip userIds).map fun (id, userId) =>
        (id, ⟨userId, .IN_APP, announcement.title, announcement.body, some sentAt, none, none⟩))) c s =
      some (announced announcement sentAt ids userIds) := by
  simp only [exec, List.map_map]
  refine if_pos ⟨insertable_announced _ _ hlength hnodup hnew, fun n hn => hexist _ ?_⟩
  rw [← announced_users announcement sentAt hlength]
  exact List.mem_map_of_mem hn

/-- The lines of an announcement. -/
def recipientsFor (announcementId : Id) (ids userIds : List Id) : List AnnouncementRecipient :=
  (ids.zip userIds).map fun (notificationId, userId) => ⟨announcementId, userId, notificationId⟩

theorem recipientsFor_eq (announcementId : Id) :
    (announced announcement sentAt ids userIds).map (fun n => ⟨announcementId, n.userId, n.id⟩) =
      recipientsFor announcementId ids userIds :=
  List.map_map

theorem insertable_recipientsFor {announcementId : Id} (hlength : ids.length = userIds.length)
    (hnodup : userIds.Nodup)
    (hnew : ∀ r ∈ s.announcementRecipients.rows, r.announcementId ≠ announcementId) :
    insertable s.announcementRecipients (recipientsFor announcementId ids userIds) = true := by
  have hkeys : (recipientsFor announcementId ids userIds).map Keyed.key =
      userIds.map (announcementId, ·) := by
    conv_rhs => rw [← List.map_snd_zip hlength.ge, List.map_map]
    exact List.map_map
  refine decide_eq_true ⟨?_, fun r hr => ?_⟩
  · rw [hkeys]
    exact hnodup.map fun _ _ h => (Prod.mk.inj h).2
  · rw [Bool.eq_false_iff]
    intro hthere
    obtain ⟨r', hr', hkey⟩ := List.mem_map.1 (Table.contains_iff.1 hthere)
    obtain ⟨⟨notificationId, userId⟩, -, rfl⟩ := List.mem_map.1 hr
    exact hnew r' hr' (Prod.mk.inj hkey).1

theorem exec_recipientsFor {announcementId : Id} (hlength : ids.length = userIds.length)
    (hids : ids.Nodup) (hnewIds : ∀ id ∈ ids, s.newNotificationId id = true)
    (hnodup : userIds.Nodup)
    (hnew : ∀ r ∈ s.announcementRecipients.rows, r.announcementId ≠ announcementId)
    (s' : World) (hadded : ∀ id ∈ ids, s'.notifications.contains id = true)
    (hsame : s'.announcementRecipients = s.announcementRecipients) (c : Choice) :
    exec (.announcementRecipientCreateMany (recipientsFor announcementId ids userIds)) c s' =
      some (recipientsFor announcementId ids userIds) := by
  have hnotifications : (recipientsFor announcementId ids userIds).map (·.notificationId) = ids := by
    conv_rhs => rw [← List.map_fst_zip hlength.le]
    exact List.map_map
  simp only [exec, hsame]
  refine if_pos ⟨insertable_recipientsFor hlength hnodup hnew, by rwa [hnotifications], ?_⟩
  intro r hr
  have hid : r.notificationId ∈ ids := hnotifications ▸ List.mem_map_of_mem hr
  exact ⟨hadded _ hid, (of_decide_eq_true (hnewIds _ hid)).2⟩

/-- The database once the notifications and the lines are written. -/
def World.notified (s : World) (announcement : Announcement) (sentAt : Date)
    (ids userIds : List Id) : World :=
  model.applyAll ((recipientsFor announcement.id ids userIds).map .recipient)
    (model.applyAll ((announced announcement sentAt ids userIds).map .notification) s)

theorem rows_announced (announcement : Announcement) (sentAt : Date)
    (hlength : ids.length = userIds.length) (hids : ids.Nodup)
    (hnewIds : ∀ id ∈ ids, s.newNotificationId id = true) :
    (model.applyAll ((announced announcement sentAt ids userIds).map .notification)
      s).notifications.rows = s.notifications.rows ++ announced announcement sentAt ids userIds := by
  obtain ⟨hkeys, hfree⟩ := of_decide_eq_true (insertable_announced announcement sentAt hlength hids
    hnewIds)
  rw [applyAll_notifications]
  exact Table.rows_foldl_insert hkeys hfree

theorem delivered_notified (hlength : ids.length = userIds.length) (hids : ids.Nodup)
    (hnewIds : ∀ id ∈ ids, s.newNotificationId id = true) :
    Delivered s (s.notified announcement sentAt ids userIds)
      ⟨announcement.title, announcement.body⟩ userIds "SENT"
      (announced announcement sentAt ids userIds) where
  added := by
    unfold World.notified
    rw [applyAll_recipients]
    exact .of_eq (rows_announced _ _ hlength hids hnewIds)
  users := announced_users _ _ hlength
  content n hn := (announced_carries hn).1
  status n hn := (announced_carries hn).2

theorem announced_notified (hlength : ids.length = userIds.length) (hnodup : userIds.Nodup)
    (hnew : ∀ r ∈ s.announcementRecipients.rows, r.announcementId ≠ announcement.id) :
    Announced announcement.id s (s.notified announcement sentAt ids userIds)
      (announced announcement sentAt ids userIds) := by
  obtain ⟨hkeys, hfree⟩ := of_decide_eq_true (insertable_recipientsFor hlength hnodup hnew)
  unfold Announced World.notified
  rw [applyAll_recipients, applyAll_notifications, recipientsFor_eq]
  exact Table.rows_foldl_insert hkeys hfree

end Announced

theorem notifyAll_reliably {announcement : Announcement} {userIds : List Id} {saved : Option World}
    (hnodup : userIds.Nodup) (hexist : ∀ u ∈ userIds, s.users.contains u = true)
    (hnew : ∀ r ∈ s.announcementRecipients.rows, r.announcementId ≠ announcement.id) :
    (notifyAll announcement userIds).reliably model
      (fun _ _ s' => ∃ rows,
        Delivered s s' ⟨announcement.title, announcement.body⟩ userIds "SENT" rows ∧
          Announced announcement.id s s' rows)
      (fun _ _ _ => False) saved s := by
  refine ⟨fun hrefused _ => ?_, fun c ids hids => ?_⟩
  · obtain ⟨ids, hids⟩ := exists_newNotificationIds s userIds.length
    exact absurd ((if_pos hids).symm.trans (hrefused (.ids ids))) nofun
  have hdrawn : ids.length = userIds.length ∧ ids.Nodup ∧
      ∀ id ∈ ids, s.newNotificationId id = true := by
    cases c with
    | date d => exact absurd hids nofun
    | id id => exact absurd hids nofun
    | ids l =>
      obtain ⟨hdrawn, heq⟩ := Option.ite_none_right_eq_some.1 hids
      obtain rfl := Option.some.inj heq
      exact hdrawn
  obtain ⟨hlength, hids, hnewIds⟩ := hdrawn
  refine ⟨fun hrefused _ => absurd (hrefused (.date ⟨0⟩)) nofun, fun c sentAt _ => ?_⟩
  have hcreated := exec_announced announcement sentAt hlength hids
    hnewIds hexist
  refine ⟨fun hrefused _ => absurd ((hcreated default).symm.trans (hrefused default)) nofun,
    fun c rows hrows => ?_⟩
  obtain rfl := Option.some.inj ((hcreated c).symm.trans hrows)
  have hadded := rows_announced announcement sentAt hlength hids hnewIds
  have hrecorded := exec_recipientsFor hlength hids hnewIds hnodup hnew
    (model.applyAll ((announced announcement sentAt ids userIds).map .notification) s)
    (fun id hid => by
      rw [Table.contains_iff, hadded, List.map_append, announced_ids _ _ hlength]
      exact List.mem_append_right _ hid)
    (by rw [applyAll_notifications])
  refine ⟨fun hrefused _ => absurd ((hrecorded default).symm.trans (hrefused default)) nofun,
    fun c rows hrows => ?_⟩
  obtain rfl := Option.some.inj ((hrecorded c).symm.trans hrows)
  exact ⟨_, delivered_notified hlength hids hnewIds, announced_notified hlength hnodup hnew⟩

theorem exists_newAnnouncementId (s : World) : ∃ id, s.newAnnouncementId id = true := by
  obtain ⟨id, hnew, htaken⟩ := s.announcements.exists_fresh
    (s.announcementRecipients.rows.map (·.announcementId))
  refine ⟨id, decide_eq_true ⟨hnew, fun r hr heq => htaken ?_⟩⟩
  exact List.mem_map.2 ⟨r, hr, heq⟩

/-- Everybody the announcement is for is notified, and has a line that names the notification. -/
theorem createAndNotify_delivers {input : CreateAnnouncementInput} {userIds : List Id}
    {r : Except Err Created} {s' : World} (hexist : ∀ u ∈ userIds, s.users.contains u = true)
    (hrun : Ran model (createAndNotify input userIds) none s r s') :
    ∃ created rows, r = .ok created ∧ Delivered s s' input.content userIds.eraseDups "SENT" rows ∧
      Announced created.announcementId s s' rows := by
  refine hrun.holds (P := fun r s' => ∃ created rows, r = .ok created ∧
    Delivered s s' input.content userIds.eraseDups "SENT" rows ∧
      Announced created.announcementId s s' rows) ?_
  refine (reliably_transaction _ _ _).2 ⟨fun hrefused _ => ?_, fun c announcement hcreated => ?_⟩
  · obtain ⟨id, hid⟩ := exists_newAnnouncementId s
    exact absurd ((if_pos hid).symm.trans (hrefused (.id id))) nofun
  have hannouncement : (∀ r ∈ s.announcementRecipients.rows, r.announcementId ≠ announcement.id) ∧
      (⟨announcement.title, announcement.body⟩ : Content) = input.content := by
    cases c with
    | date d => exact absurd hcreated nofun
    | ids l => exact absurd hcreated nofun
    | id id =>
      obtain ⟨hnew, heq⟩ := Option.ite_none_right_eq_some.1 hcreated
      obtain rfl := Option.some.inj heq
      exact ⟨(of_decide_eq_true hnew).2, rfl⟩
  obtain ⟨hnew, hcontent⟩ := hannouncement
  show reliably model (if userIds.eraseDups.length ≠ 0 then _ else _) _ _ _ _
  by_cases hsome : userIds.eraseDups.length ≠ 0
  · rw [if_pos hsome]
    refine (reliably_handle _ _ _).2 (reliably_mono ?_ (fun _ _ _ h => h.elim)
      (notifyAll_reliably (nodup_eraseDups userIds)
        (fun u hu => hexist u (List.mem_eraseDups.1 hu)) hnew))
    rintro - - s' ⟨rows, hrows, hlines⟩
    rw [hcontent] at hrows
    exact ⟨_, rows, rfl, ⟨hrows.added, hrows.users, hrows.content, hrows.status⟩, hlines⟩
  · rw [if_neg hsome]
    have hnobody : userIds.eraseDups = [] := List.length_eq_zero_iff.1 (not_not.1 hsome)
    rw [hnobody]
    exact ⟨_, [], rfl, ⟨.of_eq (List.append_nil _).symm, rfl, nofun, nofun⟩,
      (List.append_nil _).symm⟩

end Announcement

/-! ## Both -/

section Both

variable {s s' sA sB : World} {userIds : List Id}

/-- The columns of a notification, but for its id, when it was sent, and how the channel took it. -/
def Notification.columns (n : Notification) :
    Id × NotificationType × String × String × Option String :=
  (n.userId, n.type, n.title, n.body, n.failureReason)

/-- The lines of `s'` that `s` does not have. -/
def newRecipients (s s' : World) : List AnnouncementRecipient :=
  s'.announcementRecipients.rows.filter fun r => !s.announcementRecipients.contains (Keyed.key r)

/-- One notification for each listed user who has the channel enabled, and none for anybody else. -/
def DeliversToEnabled (s s' : World) (userIds : List Id) : Prop :=
  ∀ userId, (newNotifications s s').countP (fun n => n.userId = userId ∧ n.type = .IN_APP) =
    if userId ∈ userIds ∧ s.inAppEnabled userId = true then 1 else 0

/-- The announcement, which has led from `s` to `sA`, and the batch, which has led from `s` to `sB`,
    have delivered the same. -/
structure SameDelivery (s sA sB : World) (userIds : List Id) (pairs : List (Id × Id)) : Prop where
  columns : ((newNotifications s sA).map Notification.columns).Perm
    ((newNotifications s sB).map Notification.columns)
  announced : DeliversToEnabled s sA userIds
  batched : DeliversToEnabled s sB userIds
  recorded : ∀ r ∈ newRecipients s sA, ∃ n ∈ newNotifications s sA,
    n.id = r.notificationId ∧ n.userId = r.userId
  returned : ∀ pair ∈ pairs, ∃ n ∈ newNotifications s sB, n.id = pair.2 ∧ n.userId = pair.1
  order : pairs.map (·.1) = userIds.eraseDups.filter s.inAppEnabled

variable {content : Content} {users : List Id} {status : String} {rows : List Notification}

theorem Delivered.columns (h : Delivered s s' content users status rows) :
    ((newNotifications s s').map Notification.columns).Perm
      (users.map fun u => (u, .IN_APP, content.title, content.body, none)) := by
  refine (h.perm.map _).trans (.of_eq ?_)
  rw [← h.users, List.map_map]
  refine List.map_congr_left fun n hn => ?_
  obtain ⟨htype, htitle, hbody, -, hreason⟩ := h.content n hn
  simp [Notification.columns, htype, htitle, hbody, hreason]

theorem Delivered.countP (h : Delivered s s' content users status rows) (hnodup : users.Nodup)
    (userId : Id) :
    (newNotifications s s').countP (fun n => n.userId = userId ∧ n.type = .IN_APP) =
      if userId ∈ users then 1 else 0 := by
  have htype : ∀ n ∈ rows, (decide (n.userId = userId ∧ n.type = .IN_APP) = true ↔
      (n.userId == userId) = true) := by
    intro n hn
    simp [(h.content n hn).type]
  rw [h.perm.countP_eq, List.countP_congr htype, ← hnodup.count, ← h.users, List.count,
    List.countP_map]
  rfl

theorem Delivered.deliversToEnabled_iff (h : Delivered s s' content users status rows)
    (hnodup : users.Nodup) :
    DeliversToEnabled s s' userIds ↔
      ∀ u, u ∈ users ↔ u ∈ userIds ∧ s.inAppEnabled u = true := by
  unfold DeliversToEnabled
  refine forall_congr' fun u => ?_
  rw [h.countP hnodup]
  by_cases hu : u ∈ users <;> by_cases hu' : u ∈ userIds ∧ s.inAppEnabled u = true <;> simp [hu, hu']

theorem Announced.mem_newRecipients {announcementId : Id} (h : Announced announcementId s s' rows)
    {r : AnnouncementRecipient} :
    r ∈ newRecipients s s' ↔ ∃ n ∈ rows, ⟨announcementId, n.userId, n.id⟩ = r :=
  (Table.filter_new_perm (.of_eq h)).mem_iff.trans List.mem_map

/-- Every line of an announcement names a notification of its user. -/
theorem Announced.recorded {announcementId : Id} (hlines : Announced announcementId s s' rows)
    (h : Delivered s s' content users status rows) {r : AnnouncementRecipient}
    (hr : r ∈ newRecipients s s') :
    ∃ n ∈ newNotifications s s', n.id = r.notificationId ∧ n.userId = r.userId := by
  obtain ⟨n, hn, rfl⟩ := hlines.mem_newRecipients.1 hr
  exact ⟨n, h.perm.mem_iff.2 hn, rfl, rfl⟩

/-- The lines of an announcement are for those who have been notified. -/
theorem Announced.names_iff {announcementId : Id} (hlines : Announced announcementId s s' rows)
    (h : Delivered s s' content users status rows) {userId : Id} :
    (∃ r ∈ newRecipients s s', r.userId = userId) ↔ userId ∈ users := by
  rw [← h.users, List.mem_map]
  constructor
  · rintro ⟨r, hr, rfl⟩
    obtain ⟨n, hn, rfl⟩ := hlines.mem_newRecipients.1 hr
    exact ⟨n, hn, rfl⟩
  · rintro ⟨n, hn, rfl⟩
    exact ⟨_, hlines.mem_newRecipients.2 ⟨n, hn, rfl⟩, rfl⟩

variable {input : CreateAnnouncementInput}

/-- What two runs from `s` have delivered to existing users. -/
theorem exists_delivered {r : Except Err Created} {pairs : List (Id × Id)}
    (hexist : ∀ u ∈ userIds, s.users.contains u = true)
    (hA : Ran model (createAndNotify input userIds) none s r sA)
    (hB : SendsInAppBatch dispatch userIds content s pairs sB) :
    ∃ created rowsA rowsB, r = .ok created ∧
      Delivered s sA input.content userIds.eraseDups "SENT" rowsA ∧
      Announced created.announcementId s sA rowsA ∧
      Delivered s sB content (userIds.eraseDups.filter s.inAppEnabled) "STORED" rowsB ∧
      pairs = rowsB.map Notification.pair := by
  obtain ⟨created, rowsA, hr, hrowsA, hlines⟩ := createAndNotify_delivers hexist hA
  obtain ⟨rowsB, hrowsB, hpairs⟩ := sendInAppBatch_delivers hexist hB
  exact ⟨created, rowsA, rowsB, hr, hrowsA, hlines, hrowsB, hpairs⟩

/-- Both calls return, and however they run, they deliver the same. -/
def AgreeOn (dispatch : SendNotificationDto → User → Except String ProviderResult) (s : World)
    (input : CreateAnnouncementInput) (userIds : List Id) : Prop :=
  (∃ r sA pairs sB, Ran model (createAndNotify input userIds) none s r sA ∧
    SendsInAppBatch dispatch userIds ⟨input.title, input.body⟩ s pairs sB) ∧
  ∀ r sA pairs sB, Ran model (createAndNotify input userIds) none s r sA →
    SendsInAppBatch dispatch userIds ⟨input.title, input.body⟩ s pairs sB →
    (∃ created, r = .ok created) ∧ SameDelivery s sA sB userIds pairs

theorem AgreeOn.enabled (h : AgreeOn dispatch s input userIds)
    (hexist : ∀ u ∈ userIds, s.users.contains u = true) :
    ∀ u ∈ userIds, s.inAppEnabled u = true := by
  obtain ⟨⟨r, sA, pairs, sB, hA, hB⟩, hall⟩ := h
  obtain ⟨-, hsame⟩ := hall r sA pairs sB hA hB
  obtain ⟨created, rowsA, rowsB, -, hrowsA, -⟩ := exists_delivered hexist hA hB
  have hmem := (hrowsA.deliversToEnabled_iff (nodup_eraseDups userIds)).1 hsame.announced
  exact fun u hu => ((hmem u).1 (List.mem_eraseDups.2 hu)).2

end Both

variable {s : World} {userIds : List Id} {input : CreateAnnouncementInput}

/-- Two users, of whom the second has turned notifications in the app off. -/
def twoUsers : World where
  users := .ofList [⟨1⟩, ⟨2⟩]
  preferences := .ofList [{ NotificationPreference.default 2 with inAppEnabled := false }]
  notifications := .empty
  announcements := .empty
  announcementRecipients := .empty

def noClass : CreateAnnouncementInput :=
  ⟨7, 9, "Absence", "Pas de cours demain", "SPECIFIC_CLASS", none, none⟩

end GetPlatform.Notifications
