import GetPlatform.Admission.PaymentService
import GetPlatform.Store.Extend

set_option autoImplicit false

/-! # `OfferService.update` and `submitApplications`

What comes before the decisions on applications: a school edits an offer, and a student applies for it.
These calls send statements that the others do not; `Desk` is the admission side with all of them. -/

namespace GetPlatform.Admission

/-- The columns an edit of an offer gives. A capacity is at least 1, or is taken away. -/
structure UpdateOfferDto where
  programId : Option (Option Id) := none
  tuitionFees : Option Rat := none
  capacity : Option (Option Int) := none
  applicationDeadline : Option Nat := none
  isOpen : Option Bool := none
  capacity_min : ∀ c, capacity = some (some c) → 1 ≤ c := by decide

/-- The columns that are given replace those of the offer. -/
def UpdateOfferDto.set (d : UpdateOfferDto) (o : Offer) : Offer :=
  { o with
    programId := d.programId.getD o.programId
    tuitionFees := d.tuitionFees.getD o.tuitionFees
    capacity := d.capacity.getD o.capacity
    applicationDeadline := d.applicationDeadline <|> o.applicationDeadline
    isOpen := d.isOpen.getD o.isOpen }

theorem UpdateOfferDto.key_set (d : UpdateOfferDto) (o : Offer) :
    Keyed.key (d.set o) = Keyed.key o := rfl

/-! ## Statements -/

inductive DeskStmt where
  /-- An offer that is not deleted. -/
  | offerFindFirst (id : Id)
  | offerFindFirstOpen (id : Id)
  | offerUpdate (id : Id) (dto : UpdateOfferDto)
  | applicationFindFirst (studentId offerId : Id)
  | applicationCreate (studentId offerId : Id) (status : ApplicationStatus)

abbrev DeskAns : DeskStmt → Type
  | .offerFindFirst _ => Option Offer
  | .offerFindFirstOpen _ => Option Offer
  | .offerUpdate .. => Offer
  | .applicationFindFirst .. => Option Application
  | .applicationCreate .. => Application

/-- A student applies once for an offer. -/
def deskExec : (q : DeskStmt) → Choice → World → Option (DeskAns q)
  | .offerFindFirst id, _, s => some ((s.offers.find? id).filter (·.deletedAt.isNone))
  | .offerFindFirstOpen id, _, s =>
      some ((s.offers.find? id).filter fun o => o.isOpen && o.deletedAt.isNone)
  | .offerUpdate id dto, _, s => (s.offers.find? id).map dto.set
  | .applicationFindFirst studentId offerId, _, s =>
      some (s.applications.rows.find? fun a => a.studentId = studentId ∧ a.offerId = offerId)
  | .applicationCreate studentId offerId status, .nat id, s =>
      if (s.applications.rows.any fun a => a.id = id ∨ a.studentId = studentId ∧ a.offerId = offerId) ∨
        ¬ s.students.contains studentId ∨ ¬ s.offers.contains offerId then none
      else some ⟨id, studentId, offerId, status, none, none, none, none, none, none, s.clock⟩
  | _, _, _ => none

inductive DeskWrite where
  | offer (id : Id) (dto : UpdateOfferDto)
  | newApplication (row : Application)

def deskWrites : (q : DeskStmt) → DeskAns q → List DeskWrite
  | .offerUpdate id dto, _ => [.offer id dto]
  | .applicationCreate .., row => [.newApplication row]
  | _, _ => []

def World.applyDesk : DeskWrite → World → World
  | .offer id dto, s => { s with offers := s.offers.modify id dto.set dto.key_set }
  | .newApplication row, s => { s with applications := s.applications.insert row }

abbrev deskStatements : Extension model DeskStmt DeskAns where
  Write := DeskWrite
  exec := deskExec
  writes := deskWrites
  apply := World.applyDesk
  key
    | .newApplication row => some (.application row.id)
    | _ => none

abbrev deskInterface : Interface := interface.extend DeskStmt DeskAns

abbrev desk : Model deskInterface := model.extend deskStatements

/-- What a call sends and returns. -/
abbrev DeskCall (α : Type) := Prog deskInterface Err α

/-- A part that sends only what the other calls send. -/
def usual {α : Type} (p : Call α) : DeskCall α := p.lift DeskStmt DeskAns

def file (q : DeskStmt) : DeskCall (DeskAns q) := @Prog.query deskInterface Err .database (.inr q)

/-! ## `OfferService` -/

def findOne (id : Id) : DeskCall Offer := do
  let some offer ← file (.offerFindFirst id) | throw (.NotFoundException "Offer not found")
  return offer

def ensureCanManageSchool (userId schoolId : Id) : Call Unit := do
  let user ← send (.userFindUnique userId)
  if (user.bind (·.role)) = some .ADMIN_GET then return ()
  if (user.bind (·.role)) = some .SCHOOL_ADMIN ∧ (user.bind (·.schoolId)) = some schoolId then
    return ()
  throw (.ForbiddenException "Vous n’êtes pas autorisé à gérer les offres de cet établissement")

/-- A programme that is given is an active one of the school. -/
def checkProgram (schoolId : Id) : Option (Option Id) → Call Unit
  | some (some programId) => do
      let some _ ← send (.schoolProgramFindFirst programId schoolId)
        | throw (.ForbiddenException "Sélectionnez la filière correspondante")
  | _ => return ()

def updateOffer (id : Id) (dto : UpdateOfferDto) (userId : Id) : DeskCall Offer := do
  let offer ← findOne id
  usual (ensureCanManageSchool userId offer.schoolId)
  usual (checkProgram offer.schoolId dto.programId)
  file (.offerUpdate id dto)

/-! ## `ApplicationService.submitApplications` -/

structure Submissions where
  submitted : List Id := []
  failed : List Id := []
  alreadyApplied : List Id := []
  deriving DecidableEq

/-- `offer.applicationDeadline && offer.applicationDeadline < new Date()` -/
def isPast : Option Nat → Call Bool
  | none => return false
  | some deadline => do return decide (deadline < (← send .now))

/-- The transaction of an application: it is there, and its timeline says so. -/
def createApplication (studentId offerId : Id) : DeskCall Application := do
  let application ← file (.applicationCreate studentId offerId .PENDING)
  usual <| send <| .timelineCreate
    { applicationId := application.id, status := .PENDING, note := .submitted, createdBy := none }
  return application

def submitTo (student : Student) (offerId : Id) (results : Submissions) :
    DeskCall Submissions := do
  let some offer ← file (.offerFindFirstOpen offerId)
    | return { results with failed := results.failed ++ [offerId] }
  if ← usual (isPast offer.applicationDeadline) then
    return { results with failed := results.failed ++ [offerId] }
  let existing ← file (.applicationFindFirst student.id offerId)
  if existing.isSome then
    return { results with alreadyApplied := results.alreadyApplied ++ [offerId] }
  let application ←
    Prog.transaction .database .readCommitted (createApplication student.id offerId)
  usual (notifyStatusChange student.userId application.id .PENDING)
  return { results with submitted := results.submitted ++ [offerId] }

def submitToAll (student : Student) : List Id → Submissions → DeskCall Submissions
  | [], results => return results
  | offerId :: offerIds, results => do
      submitToAll student offerIds (← submitTo student offerId results)

def submitApplications (studentId : Id) (offerIds : List Id) : DeskCall Submissions := do
  let some student ← usual (send (.studentFindUnique studentId))
    | throw (.NotFoundException "Student not found")
  submitToAll student offerIds {}

/-! ## The calls -/

inductive DeskOp where
  | usual (o : Op)
  | updateOffer (id : Id) (dto : UpdateOfferDto) (userId : Id)
  | submitApplications (studentId : Id) (offerIds : List Id)

inductive DeskReply where
  | usual (reply : Reply)
  | offer (offer : Offer)
  | submissions (results : Submissions)

def deskProgram : DeskOp → DeskCall DeskReply
  | .usual o => .usual <$> usual (prog o)
  | .updateOffer id dto userId => .offer <$> updateOffer id dto userId
  | .submitApplications studentId offerIds => .submissions <$> submitApplications studentId offerIds

/-- The runs of the desk: its calls, one after the other. -/
abbrev DeskRun (R : TurnRule desk DeskOp Err DeskReply) (s₀ : World)
    (h : List (Turn desk DeskOp Err DeskReply)) (s : World) : Prop :=
  Journal desk deskProgram R s₀ h s

/-- Of the desk's calls, those that the other modules are about run as they do there. -/
theorem alone_of_usual {o : Op} {s s' : World} {cs : List (Except Failure Choice)}
    {r : Except Err DeskReply}
    (h : (deskProgram (.usual o)).alone (M := desk) none s cs = some (r, s')) :
    ∃ reply, (prog o).alone (M := model) none s cs = some (reply, s') := by
  obtain ⟨reply, hout⟩ := Prog.alone_of_map h
  exact ⟨reply, (Prog.alone_lift (N := deskStatements) (prog o) none s cs).symm.trans hout⟩

end GetPlatform.Admission
