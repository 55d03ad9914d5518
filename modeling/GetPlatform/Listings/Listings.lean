import GetPlatform.Admission.Types
import GetPlatform.Listings.Pagination
import GetPlatform.Messages.Types
import GetPlatform.Store.Map

set_option autoImplicit false

/-! # The threads and the lists of applications

Each is ordered by an instant that several rows can share. -/

namespace GetPlatform.Listings

open Messages (UserId Message ConversationParticipant MessageAttachment)
open Admission (Application)

abbrev Id := Nat

/-! ## Threads -/

/-- A profile, one for each user at most. -/
structure Student where
  userId : UserId
  firstName : String
  lastName : String
  deriving DecidableEq

instance : Keyed Student UserId := ⟨(·.userId)⟩

structure StoredAttachment extends MessageAttachment where
  createdAt : Nat
  deriving DecidableEq

/-- What a thread is read from. -/
structure Mailbox where
  users : Table Messages.User
  students : Table Student
  participants : Table ConversationParticipant
  messages : Table Message
  attachments : List StoredAttachment
  /-- The foreign keys of messages. -/
  sender : ∀ m ∈ messages, (users.find? m.senderId).isSome
  recipient : ∀ m ∈ messages, (users.find? m.recipientId).isSome

/-- A message joined with its users and their profiles. -/
structure ThreadRow where
  message : Message
  su : Messages.User
  ru : Messages.User
  ss : Option Student
  rs : Option Student

structure Name where
  firstName : String
  lastName : String
  deriving DecidableEq

structure Correspondent where
  id : UserId
  email : String
  student : Option Name
  deriving DecidableEq

structure ThreadMessage where
  message : Message
  attachments : List StoredAttachment
  sender : Correspondent
  recipient : Correspondent
  deriving DecidableEq

namespace Mailbox

variable (db : Mailbox)

def matching (conversationId : Id) : List Message :=
  db.messages.rows.filter fun m => m.conversationId = conversationId

def join (m : Message) : Option ThreadRow := do
  let su ← db.users.find? m.senderId
  let ru ← db.users.find? m.recipientId
  some ⟨m, su, ru, db.students.find? su.id, db.students.find? ru.id⟩

/-- The rows of the query, in no order yet. -/
def threadRows (conversationId : Id) : List ThreadRow := (db.matching conversationId).filterMap db.join

end Mailbox

def safePage (page : Option Int) : Int := max 1 (numberOr page 1)

def safeLimit (limit : Option Int) : Int := min 100 (max 1 (numberOr limit 30))

/-- `item.senderFirstName ? { firstName, lastName } : null` -/
def nameOf (student : Option Student) : Option Name :=
  student.bind fun student =>
    if student.firstName ≠ "" then some ⟨student.firstName, student.lastName⟩ else none

def attachmentsByMessage (attachments : List StoredAttachment) : Map Id (List StoredAttachment) :=
  attachments.foldl (fun map attachment =>
    map.set attachment.messageId ((map.get? attachment.messageId).getD [] ++ [attachment])) .empty

def ensureParticipant (db : Mailbox) (conversationId : Id) (userId : UserId) : Except Failure Unit :=
  if db.participants.contains (conversationId, userId) then .ok ()
  else .error (.NotFoundException "Conversation introuvable")

def getThread (orderBy : List ThreadRow → List ThreadRow)
    (orderAttachments : List StoredAttachment → List StoredAttachment) (conversationId : Id)
    (userId : UserId) (page limit : Option Int) (db : Mailbox) :
    Except Failure (Paginated ThreadMessage) := do
  ensureParticipant db conversationId userId
  let safePage := safePage (some (page.getD 1))
  let safeLimit := safeLimit (some (limit.getD 50))
  let items ← findMany (orderBy (db.threadRows conversationId)) ((safePage - 1) * safeLimit) safeLimit
  let total := (db.matching conversationId).length
  let attachments :=
    if items ≠ [] then
      orderAttachments (db.attachments.filter fun attachment =>
        attachment.messageId ∈ items.map (·.message.id))
    else []
  let attachmentsByMessage := attachmentsByMessage attachments
  .ok {
    items := items.map fun item =>
      { message := item.message
        attachments := (attachmentsByMessage.get? item.message.id).getD []
        sender := ⟨item.message.senderId, item.su.email, nameOf item.ss⟩
        recipient := ⟨item.message.recipientId, item.ru.email, nameOf item.rs⟩ }
    pageMeta := pageMeta safePage safeLimit total }

/-! ## Applications -/

structure School where
  id : Id
  name : String
  deriving DecidableEq

structure Offer where
  id : Id
  schoolId : Id
  title : String
  deriving DecidableEq

structure Account where
  id : Id
  email : String
  deriving DecidableEq

structure Applicant where
  id : Id
  userId : Id
  firstName : String
  lastName : String
  deriving DecidableEq

structure TimelineEntry where
  id : Id
  applicationId : Id
  status : String
  note : Option String
  createdBy : Option Id
  createdAt : Nat
  deriving DecidableEq

instance : Keyed School Id := ⟨(·.id)⟩
instance : Keyed Offer Id := ⟨(·.id)⟩
instance : Keyed Account Id := ⟨(·.id)⟩
instance : Keyed Applicant Id := ⟨(·.id)⟩

/-- What the lists of applications are read from. -/
structure Registry where
  schools : Table School
  offers : Table Offer
  users : Table Account
  students : Table Applicant
  applications : Table Application
  timeline : List TimelineEntry
  /-- The foreign keys. -/
  offer : ∀ a ∈ applications, ∃ o ∈ offers, o.id = a.offerId
  student : ∀ a ∈ applications, ∃ s ∈ students, s.id = a.studentId
  school : ∀ o ∈ offers, ∃ s ∈ schools, s.id = o.schoolId
  user : ∀ s ∈ students, ∃ u ∈ users, u.id = s.userId

structure StudentApplication where
  application : Application
  offer : Offer
  school : School
  timeline : List TimelineEntry
  deriving DecidableEq

structure ListedApplication where
  id : Id
  status : String
  submittedAt : Nat
  studentName : String
  offerTitle : String
  school : String
  deriving DecidableEq

structure Options where
  status : Option String := none
  schoolId : Option Id := none
  search : Option String := none
  page : Option Int := none
  limit : Option Int := none

/-- `if (options?.status)` -/
def givenText (text : Option String) : Option String := text.filter (· ≠ "")

namespace Registry

variable (db : Registry)

/-- `{ studentId, status }` -/
def matchingOfStudent (studentId : Id) (status : Option String) : List Application :=
  db.applications.rows.filter fun a =>
    a.studentId = studentId && (givenText status).all fun status => a.status.text = status

-- `contains` without regard to case, as the database compares.
variable (contains : String → String → Bool)

def found (search : String) (a : Application) : Bool :=
  (db.students.find? a.studentId).any fun student =>
    contains student.firstName search || contains student.lastName search ||
      (db.users.find? student.userId).any fun user => contains user.email search

/-- `where` -/
def matchingAll (options : Options) : List Application :=
  db.applications.rows.filter fun a =>
    ((givenText options.status).all fun status => a.status.text = status) &&
    (options.schoolId.all fun schoolId =>
      (db.offers.find? a.offerId).any fun offer => offer.schoolId = schoolId) &&
    (givenText options.search).all fun search => db.found contains search a

end Registry

def getStudentApplications (orderBy : List Application → List Application)
    (orderTimeline : List TimelineEntry → List TimelineEntry) (studentId : Id) (options : Options)
    (db : Registry) : Except Failure (Paginated StudentApplication) := do
  let page := numberOr options.page 1
  let limit := numberOr options.limit 20
  let skip := (page - 1) * limit
  let rows := db.matchingOfStudent studentId options.status
  let items ← findMany (orderBy rows) skip limit
  let total := rows.length
  .ok {
    items := items.filterMap fun a => do
      let offer ← db.offers.find? a.offerId
      let school ← db.schools.find? offer.schoolId
      let timeline := orderTimeline (db.timeline.filter fun entry => entry.applicationId = a.id)
      some ⟨a, offer, school, timeline.take 10⟩
    pageMeta := pageMeta page limit total }

/-- `[firstName, lastName].filter(Boolean).join(' ') || email` -/
def studentName (student : Applicant) (user : Account) : String :=
  let name := " ".intercalate ([student.firstName, student.lastName].filter (· ≠ ""))
  if name ≠ "" then name else user.email

def getAllApplications (contains : String → String → Bool)
    (orderBy : List Application → List Application) (options : Options) (db : Registry) :
    Except Failure (Paginated ListedApplication) := do
  let page := numberOr options.page 1
  let limit := min (max (numberOr options.limit 20) 1) 100
  let skip := (page - 1) * limit
  let rows := db.matchingAll contains options
  let items ← findMany (orderBy rows) skip limit
  let total := rows.length
  .ok {
    items := items.filterMap fun a => do
      let student ← db.students.find? a.studentId
      let user ← db.users.find? student.userId
      let offer ← db.offers.find? a.offerId
      let school ← db.schools.find? offer.schoolId
      some ⟨a.id, a.status.text, a.submittedAt, studentName student user, offer.title, school.name⟩
    pageMeta := pageMeta page limit total }

/-! ## All pages -/

theorem numberOr_add_one (i : Nat) (fallback : Int) :
    numberOr (some ((i : Int) + 1)) fallback = i + 1 := by
  rw [numberOr, if_neg (by omega)]

theorem numberOr_natCast {limit : Nat} (h : 1 ≤ limit) (fallback : Int) :
    numberOr (some (limit : Int)) fallback = limit := by
  rw [numberOr, if_neg (by omega)]

theorem safePage_add_one (i : Nat) : safePage (some ((i : Int) + 1)) = i + 1 := by
  rw [safePage, numberOr_add_one]
  omega

theorem safeLimit_natCast {limit : Nat} (h : 1 ≤ limit) (h' : limit ≤ 100) :
    safeLimit (some (limit : Int)) = limit := by
  rw [safeLimit, numberOr_natCast h]
  omega

theorem Mailbox.join_eq (db : Mailbox) {m : Message} (h : m ∈ db.messages) :
    ∃ row, db.join m = some row ∧ row.message = m := by
  obtain ⟨su, hsu⟩ := Option.isSome_iff_exists.1 (db.sender m h)
  obtain ⟨ru, hru⟩ := Option.isSome_iff_exists.1 (db.recipient m h)
  rw [Mailbox.join, hsu, hru]
  exact ⟨_, rfl, rfl⟩

/-- A thread has a row for each of its messages. -/
theorem Mailbox.map_message_threadRows (db : Mailbox) (conversationId : Id) :
    (db.threadRows conversationId).map (·.message) = db.matching conversationId := by
  have hjoin : ∀ m ∈ db.matching conversationId, ∃ row, db.join m = some row ∧ row.message = id m :=
    fun m hm => db.join_eq (List.mem_of_mem_filter hm)
  rw [Mailbox.threadRows, map_filterMap_name hjoin, List.map_id]

theorem nodup_map_filter {ρ κ : Type} [Keyed ρ κ] (t : Table ρ) (p : ρ → Bool) :
    ((t.rows.filter p).map Keyed.key).Nodup :=
  t.nodup.sublist (List.filter_sublist.map _)

theorem getThread_eq (orderBy : List ThreadRow → List ThreadRow)
    (orderAttachments : List StoredAttachment → List StoredAttachment) {conversationId : Id}
    {userId : UserId} {db : Mailbox} (hmember : db.participants.contains (conversationId, userId))
    {limit : Nat} (h : 1 ≤ limit) (h' : limit ≤ 100) (i : Nat) :
    ∃ items, getThread orderBy orderAttachments conversationId userId (some ((i : Int) + 1))
        (some (limit : Int)) db =
      .ok ⟨items, pageMeta (i + 1) limit (db.threadRows conversationId).length⟩ ∧
      items.map (·.message.id) =
        (page (orderBy (db.threadRows conversationId)) limit i).map (·.message.id) := by
  have htotal : (db.threadRows conversationId).length = (db.matching conversationId).length := by
    rw [← db.map_message_threadRows, List.length_map]
  have hmember' : ensureParticipant db conversationId userId = .ok () := if_pos hmember
  unfold getThread
  simp only [hmember', Option.getD_some, safePage_add_one, safeLimit_natCast h h', findMany_page, htotal,
    bind, Except.bind]
  exact ⟨_, rfl, by rw [List.map_map]; rfl⟩

theorem getStudentApplications_eq (orderBy : List Application → List Application)
    (orderTimeline : List TimelineEntry → List TimelineEntry) (studentId : Id) (options : Options)
    {db : Registry} (horder : (orderBy (db.matchingOfStudent studentId options.status)).Perm
      (db.matchingOfStudent studentId options.status)) {limit : Nat} (h : 1 ≤ limit) (i : Nat) :
    ∃ items, getStudentApplications orderBy orderTimeline studentId
        { options with page := some ((i : Int) + 1), limit := some (limit : Int) } db =
      .ok ⟨items, pageMeta (i + 1) limit (db.matchingOfStudent studentId options.status).length⟩ ∧
      items.map (·.application.id) =
        (page (orderBy (db.matchingOfStudent studentId options.status)) limit i).map (·.id) := by
  unfold getStudentApplications
  simp only [numberOr_add_one, numberOr_natCast h, findMany_page, bind, Except.bind]
  refine ⟨_, rfl, map_filterMap_name fun a ha => ?_⟩
  have hmem : a ∈ db.applications := List.mem_of_mem_filter
    (horder.mem_iff.1 (List.mem_of_mem_drop (List.mem_of_mem_take ha)))
  obtain ⟨offer, hoffer, hofferId⟩ := db.offer a hmem
  obtain ⟨school, hschool, hschoolId⟩ := db.school offer hoffer
  have hfindOffer : db.offers.find? a.offerId = some offer := Table.find?_eq_some.2 ⟨hoffer, hofferId⟩
  have hfindSchool : db.schools.find? offer.schoolId = some school :=
    Table.find?_eq_some.2 ⟨hschool, hschoolId⟩
  rw [hfindOffer]
  simp only [Option.bind_some, hfindSchool]
  exact ⟨_, rfl, rfl⟩

theorem getAllApplications_eq (contains : String → String → Bool)
    (orderBy : List Application → List Application) (options : Options) {db : Registry}
    (horder : (orderBy (db.matchingAll contains options)).Perm (db.matchingAll contains options))
    {limit : Nat} (h : 1 ≤ limit) (h' : limit ≤ 100) (i : Nat) :
    ∃ items, getAllApplications contains orderBy
        { options with page := some ((i : Int) + 1), limit := some (limit : Int) } db =
      .ok ⟨items, pageMeta (i + 1) limit (db.matchingAll contains options).length⟩ ∧
      items.map (·.id) = (page (orderBy (db.matchingAll contains options)) limit i).map (·.id) := by
  have hlimit : min (max (numberOr (some (limit : Int)) 20) 1) 100 = (limit : Int) := by
    rw [numberOr_natCast h]
    omega
  have hrows : db.matchingAll contains
      { options with page := some ((i : Int) + 1), limit := some (limit : Int) } =
        db.matchingAll contains options := rfl
  unfold getAllApplications
  simp only [hrows, hlimit, numberOr_add_one, findMany_page, bind, Except.bind]
  refine ⟨_, rfl, map_filterMap_name fun a ha => ?_⟩
  have hmem : a ∈ db.applications := List.mem_of_mem_filter
    (horder.mem_iff.1 (List.mem_of_mem_drop (List.mem_of_mem_take ha)))
  obtain ⟨student, hstudent, hstudentId⟩ := db.student a hmem
  obtain ⟨user, huser, huserId⟩ := db.user student hstudent
  obtain ⟨offer, hoffer, hofferId⟩ := db.offer a hmem
  obtain ⟨school, hschool, hschoolId⟩ := db.school offer hoffer
  have hfindStudent : db.students.find? a.studentId = some student :=
    Table.find?_eq_some.2 ⟨hstudent, hstudentId⟩
  have hfindUser : db.users.find? student.userId = some user := Table.find?_eq_some.2 ⟨huser, huserId⟩
  have hfindOffer : db.offers.find? a.offerId = some offer := Table.find?_eq_some.2 ⟨hoffer, hofferId⟩
  have hfindSchool : db.schools.find? offer.schoolId = some school :=
    Table.find?_eq_some.2 ⟨hschool, hschoolId⟩
  simp only [hfindStudent, hfindUser, hfindOffer, hfindSchool, Option.bind_some]
  exact ⟨_, rfl, rfl⟩

/-- The key of applications, of which the latest come first. -/
def latestFirst (a : Application) : OrderDual Nat := OrderDual.toDual a.submittedAt

/-- All pages of a thread have each of its messages once, in any answers of the database. -/
def ThreadReadsOnce (db : Mailbox) (conversationId : Id) (userId : UserId) (limit : Nat) : Prop :=
  ∀ (orders : Nat → List ThreadRow → List ThreadRow)
    (orderAttachments : Nat → List StoredAttachment → List StoredAttachment),
    (∀ i, IsOrder (fun row : ThreadRow => row.message.createdAt) (orders i)) →
    ((everyPage fun i => getThread (orders i) (orderAttachments i) conversationId userId
        (some ((i : Int) + 1)) (some (limit : Int)) db).map (·.message.id)).Perm
      ((db.matching conversationId).map (·.id))

/-- The same, of the list of a student's applications. -/
def StudentListReadsOnce (db : Registry) (studentId : Id) (options : Options) (limit : Nat) : Prop :=
  ∀ (orders : Nat → List Application → List Application)
    (orderTimeline : Nat → List TimelineEntry → List TimelineEntry),
    (∀ i, IsOrder latestFirst (orders i)) →
    ((everyPage fun i => getStudentApplications (orders i) (orderTimeline i) studentId
        { options with page := some ((i : Int) + 1), limit := some (limit : Int) } db).map
          (·.application.id)).Perm
      ((db.matchingOfStudent studentId options.status).map (·.id))

/-- The same, of the list of all applications. -/
def FullListReadsOnce (contains : String → String → Bool) (db : Registry) (options : Options)
    (limit : Nat) : Prop :=
  ∀ orders : Nat → List Application → List Application, (∀ i, IsOrder latestFirst (orders i)) →
    ((everyPage fun i => getAllApplications contains (orders i)
        { options with page := some ((i : Int) + 1), limit := some (limit : Int) } db).map (·.id)).Perm
      ((db.matchingAll contains options).map (·.id))

theorem threadReadsOnce_iff {db : Mailbox} {conversationId : Id} {userId : UserId}
    (hmember : db.participants.contains (conversationId, userId)) {limit : Nat} (h : 1 ≤ limit)
    (h' : limit ≤ 100) : ThreadReadsOnce db conversationId userId limit ↔
      SharePage (·.createdAt) limit (db.matching conversationId) := by
  have hnodup : ((db.threadRows conversationId).map (·.message.id)).Nodup := by
    have hmessages := nodup_map_filter db.messages fun m => m.conversationId = conversationId
    rw [← Mailbox.matching, ← db.map_message_threadRows, List.map_map] at hmessages
    exact hmessages
  have hnames : (db.threadRows conversationId).map (·.message.id) =
      (db.matching conversationId).map (·.id) := by
    rw [← db.map_message_threadRows, List.map_map]
    rfl
  have hiff := fun orderAttachments : Nat → List StoredAttachment → List StoredAttachment =>
    everyPage_perm_iff (fun row : ThreadRow => row.message.createdAt) h hnodup fun i order _ =>
      getThread_eq order (orderAttachments i) hmember h h' i
  rw [← db.map_message_threadRows, sharePage_map]
  rw [hnames] at hiff
  constructor
  · intro hall
    exact (hiff fun _ => id).1 fun orders horders => hall orders (fun _ => id) horders
  · intro hshare orders orderAttachments horders
    exact (hiff orderAttachments).2 hshare orders horders

theorem studentListReadsOnce_iff (db : Registry) (studentId : Id) (options : Options) {limit : Nat}
    (h : 1 ≤ limit) : StudentListReadsOnce db studentId options limit ↔
      SharePage latestFirst limit (db.matchingOfStudent studentId options.status) := by
  have hnodup : ((db.matchingOfStudent studentId options.status).map (·.id)).Nodup :=
    nodup_map_filter db.applications _
  have hiff := fun orderTimeline : Nat → List TimelineEntry → List TimelineEntry =>
    everyPage_perm_iff latestFirst h hnodup fun i order horder =>
      getStudentApplications_eq order (orderTimeline i) studentId options horder.perm h i
  constructor
  · intro hall
    exact (hiff fun _ => id).1 fun orders horders => hall orders (fun _ => id) horders
  · intro hshare orders orderTimeline horders
    exact (hiff orderTimeline).2 hshare orders horders

theorem fullListReadsOnce_iff (contains : String → String → Bool) (db : Registry) (options : Options)
    {limit : Nat} (h : 1 ≤ limit) (h' : limit ≤ 100) :
    FullListReadsOnce contains db options limit ↔
      SharePage latestFirst limit (db.matchingAll contains options) := by
  have hnodup : ((db.matchingAll contains options).map (·.id)).Nodup :=
    nodup_map_filter db.applications _
  exact everyPage_perm_iff latestFirst h hnodup fun i order horder =>
    getAllApplications_eq contains order options horder.perm h h' i

/-- **When no page loses or repeats a row.** Whatever the database does with equal instants, a list is read in
pages once exactly when rows with equal instants share a page. -/
theorem listsReadOnce_iff (contains : String → String → Bool) {limit : Nat} (h : 1 ≤ limit)
    (h' : limit ≤ 100) :
    (∀ (db : Mailbox) (conversationId : Id) (userId : UserId),
      db.participants.contains (conversationId, userId) →
      (ThreadReadsOnce db conversationId userId limit ↔
        SharePage (·.createdAt) limit (db.matching conversationId))) ∧
    (∀ (db : Registry) (studentId : Id) (options : Options),
      StudentListReadsOnce db studentId options limit ↔
        SharePage latestFirst limit (db.matchingOfStudent studentId options.status)) ∧
    ∀ (db : Registry) (options : Options), FullListReadsOnce contains db options limit ↔
      SharePage latestFirst limit (db.matchingAll contains options) := by
  refine ⟨fun db conversationId userId hmember => threadReadsOnce_iff hmember h h', ?_, ?_⟩
  · exact fun db studentId options => studentListReadsOnce_iff db studentId options h
  · exact fun db options => fullListReadsOnce_iff contains db options h h'

/-! ## Two rows of one instant -/

def ada : UserId := ⟨[⟨97, by decide⟩], by decide⟩
def bob : UserId := ⟨[⟨98, by decide⟩], by decide⟩

/-- Two messages that were written in the same millisecond. -/
def sameInstant : Mailbox where
  users := ⟨[⟨ada, "ada@get.mg"⟩, ⟨bob, "bob@get.mg"⟩], by decide⟩
  students := .empty
  participants := ⟨[⟨1, ada⟩, ⟨1, bob⟩], by decide⟩
  messages := ⟨[⟨1, 1, ada, bob, none, "a", false, 5⟩, ⟨2, 1, bob, ada, none, "b", false, 5⟩], by decide⟩
  attachments := []
  sender := by decide
  recipient := by decide

/-- Two applications that were submitted in the same millisecond. -/
def sameSubmission : Registry where
  schools := ⟨[⟨1, "Université"⟩], by decide⟩
  offers := ⟨[⟨1, 1, "Licence"⟩, ⟨2, 1, "Master"⟩], by decide⟩
  users := ⟨[⟨1, "ada@get.mg"⟩], by decide⟩
  students := ⟨[⟨1, 1, "Ada", "L"⟩], by decide⟩
  applications := ⟨[⟨1, 1, 1, .PENDING, none, none, none, none, none, none, 5⟩,
    ⟨2, 1, 2, .PENDING, none, none, none, none, none, none, 5⟩], by decide⟩
  timeline := []
  offer := by decide
  student := by decide
  school := by decide
  user := by decide

/-- In pages of two, the rows of either database are read once; in pages of one they need not be. -/
theorem listsReadOnce_iff_sameInstant :
    ThreadReadsOnce sameInstant 1 ada 2 ∧ StudentListReadsOnce sameSubmission 1 {} 2 ∧
      FullListReadsOnce (fun _ _ => true) sameSubmission {} 2 := by
  obtain ⟨hthread, hstudent, hall⟩ :=
    @listsReadOnce_iff (fun _ _ => true) 2 (by decide) (by decide)
  refine ⟨(hthread sameInstant 1 ada (by decide)).2 (by decide), (hstudent sameSubmission 1 {}).2 ?_,
    (hall sameSubmission {}).2 ?_⟩
  · decide
  · decide

theorem not_listsReadOnce :
    ¬ThreadReadsOnce sameInstant 1 ada 1 ∧ ¬StudentListReadsOnce sameSubmission 1 {} 1 ∧
      ¬FullListReadsOnce (fun _ _ => true) sameSubmission {} 1 := by
  refine ⟨fun h => ?_, fun h => ?_, fun h => ?_⟩
  · exact absurd ((threadReadsOnce_iff (by decide) le_rfl (by decide)).1 h) (by decide)
  · exact absurd ((studentListReadsOnce_iff _ _ _ le_rfl).1 h) (by decide)
  · exact absurd ((fullListReadsOnce_iff _ _ _ le_rfl (by decide)).1 h) (by decide)

end GetPlatform.Listings
