import GetPlatform.Format.Date
import GetPlatform.Format.Json
import GetPlatform.Format.Number
import GetPlatform.Timetable.TeacherAvailabilityService
import Mathlib.Data.Rat.Lemmas

set_option autoImplicit false

/-! # What a teacher may declare

The request body is any JSON, and two of its fields are checked only when the other one is not there, each by
its own test: the day when the date is false in a condition, the date when the day is `undefined`. A body with a
date and any day at all passes both, and the row is weekly and dated at once. -/

namespace GetPlatform.Timetable.Unavailability

/-! ## Values -/

/-- A value of a request body; `none` stands for `undefined`. -/
abbrev Value := Option (Json Number)

/-- The values that are false in a condition. -/
def falsy : Value → Bool
  | none => true
  | some .null => true
  | some (.bool b) => !b
  | some (.num n) => n = .NaN ∨ n = .finite 0
  | some (.str s) => s = ""
  | _ => false

structure Body where
  dayOfWeek : Value
  date : Value
  startTime : Value
  endTime : Value
  reason : Value

/-! ## The decorators -/

/-- `@IsInt` -/
def isInt : Value → Bool
  | some (.num (.finite q)) => q.den = 1
  | _ => false

/-- `@Min` -/
def isAtLeast (bound : Rat) : Value → Bool
  | some (.num (.finite q)) => bound ≤ q
  | some (.num (.infinity negative)) => !negative
  | _ => false

/-- `@Max` -/
def isAtMost (bound : Rat) : Value → Bool
  | some (.num (.finite q)) => q ≤ bound
  | some (.num (.infinity negative)) => negative
  | _ => false

/-- `@IsString` -/
def isString : Value → Bool
  | some (.str _) => true
  | _ => false

/-- `@IsDateString`, by the pattern that validator.js has for such texts. -/
def isDateString (isISO8601 : String → Bool) : Value → Bool
  | some (.str s) => isISO8601 s
  | _ => false

/-- A variation selector, and the character before it, count as one. -/
def presentationSequences : List Char → Nat
  | c :: d :: rest =>
      presentationSequences (d :: rest) +
        if c ∉ ['\uFE0E', '\uFE0F'] ∧ d ∈ ['\uFE0E', '\uFE0F'] then 1 else 0
  | _ => 0

/-- `@MaxLength` -/
def hasMaxLength (max : Nat) : Value → Bool
  | some (.str s) => s.length - presentationSequences s.toList ≤ max
  | _ => false

/-- `@Matches(TIME_PATTERN)`, with what it accepts. -/
def time? : Value → Option Time
  | some (.str s) => if h : matchesTimePattern s = true then some ⟨s, h⟩ else none
  | _ => none

/-! ## Validation -/

inductive Err where
  | invalid (messages : List String)
  | BadRequestException (message : String)
  | database
  deriving DecidableEq

/-- The message of a check that fails. -/
def reject (ok : Bool) (message : String) : List String := if ok then [] else [message]

/-- `@ValidateIf(!dto.date)` -/
def dayOfWeekMessages (body : Body) : List String :=
  if falsy body.date then
    reject (isAtMost 7 body.dayOfWeek) "dayOfWeek must not be greater than 7" ++
      reject (isAtLeast 1 body.dayOfWeek) "dayOfWeek must not be less than 1" ++
      reject (isInt body.dayOfWeek) "dayOfWeek must be an integer number"
  else []

/-- `@ValidateIf(dto.dayOfWeek === undefined)` -/
def dateMessages (isISO8601 : String → Bool) (body : Body) : List String :=
  if body.dayOfWeek.isNone then
    reject (isDateString isISO8601 body.date) "date must be a valid ISO 8601 date string"
  else []

def timeMessages (property message : String) (value : Value) : List String :=
  reject (time? value).isSome message ++ reject (isString value) s!"{property} must be a string"

/-- `@IsOptional` -/
def reasonMessages : Value → List String
  | none => []
  | some .null => []
  | value =>
      reject (hasMaxLength 200 value) "reason must be shorter than or equal to 200 characters" ++
        reject (isString value) "reason must be a string"

def messages (isISO8601 : String → Bool) (body : Body) : List String :=
  dayOfWeekMessages body ++ dateMessages isISO8601 body ++
    timeMessages "startTime" "L'heure de début doit être au format HH:mm" body.startTime ++
    timeMessages "endTime" "L'heure de fin doit être au format HH:mm" body.endTime ++
    reasonMessages body.reason

def text? : Value → Option String
  | some (.str s) => some s
  | _ => none

/-- What is left of a body that is valid: the day and the date are still any value. -/
structure DeclareUnavailabilityDto where
  dayOfWeek : Value
  date : Value
  startTime : Time
  endTime : Time
  reason : Option String

def validate (isISO8601 : String → Bool) (body : Body) : Except Err DeclareUnavailabilityDto :=
  match messages isISO8601 body, time? body.startTime, time? body.endTime with
  | [], some startTime, some endTime =>
      .ok ⟨body.dayOfWeek, body.date, startTime, endTime, text? body.reason⟩
  | messages, _, _ => .error (.invalid messages)

/-! ## The row -/

structure Row where
  teacherId : Id
  dayOfWeek : Option Int
  date : Option Date
  startTime : Time
  endTime : Time
  reason : Option String
  deriving DecidableEq

/-- What a nullable column of integers takes: Prisma refuses any other value. An infinite number is null in the
JSON that it sends. -/
def intColumn : Value → Option (Option Int)
  | none => some none
  | some .null => some none
  | some (.num (.infinity _)) => some none
  | some (.num (.finite q)) =>
      if q.den = 1 ∧ -2 ^ 31 ≤ q.num ∧ q.num < 2 ^ 31 then some (some q.num) else none
  | _ => none

/-- `dto.date ? new Date(dto.date) : undefined`; Prisma refuses an invalid date. -/
def dateColumn (newDate : Json Number → Option Date) (value : Value) : Option (Option Date) :=
  match value with
  | some v => if falsy value then some none else (newDate v).map some
  | none => some none

def declareUnavailability (newDate : Json Number → Option Date) (teacherId : Id)
    (dto : DeclareUnavailabilityDto) : Except Err Row :=
  if ¬ dto.startTime < dto.endTime then
    .error (.BadRequestException "L'heure de fin doit être postérieure à l'heure de début")
  else if falsy dto.dayOfWeek ∧ falsy dto.date then
    .error (.BadRequestException "Précisez un jour récurrent ou une date ponctuelle")
  else
    match intColumn dto.dayOfWeek, dateColumn newDate dto.date with
    | some dayOfWeek, some date =>
        .ok ⟨teacherId, dayOfWeek, date, dto.startTime, dto.endTime, dto.reason⟩
    | _, _ => .error .database

/-- A request of a teacher, from its body to the row. -/
def create (isISO8601 : String → Bool) (newDate : Json Number → Option Date) (teacherId : Id) (body : Body) :
    Except Err Row := do
  let dto ← validate isISO8601 body
  declareUnavailability newDate teacherId dto

/-! ## What is stored -/

/-- Weekly on a real day, or on a date, and not both; and the times are in order. -/
structure Row.WellFormed (row : Row) : Prop where
  kind : (∃ d, row.dayOfWeek = some d ∧ 1 ≤ d ∧ d ≤ 7 ∧ row.date = none) ∨
    (row.dayOfWeek = none ∧ ∃ date, row.date = some date)
  ordered : toMinutes row.startTime < toMinutes row.endTime

/-- The rows that are read as weekly are on a real day, and have no date. -/
def Row.WeeklyOnly (row : Row) : Prop :=
  ∀ d, row.dayOfWeek = some d → 1 ≤ d ∧ d ≤ 7 ∧ row.date = none

theorem Row.WellFormed.weeklyOnly {row : Row} (h : row.WellFormed) : row.WeeklyOnly := by
  intro d hd
  rcases h.kind with ⟨d', hd', hlow, hhigh, hdate⟩ | ⟨hnone, -⟩
  · obtain rfl := Option.some.inj (hd.symm.trans hd')
    exact ⟨hlow, hhigh, hdate⟩
  · rw [hnone] at hd
    cases hd

/-- The body has a date and a day, which is a number. -/
def Body.Both (body : Body) : Prop :=
  falsy body.date = false ∧ ∃ q, body.dayOfWeek = some (.num (.finite q))

theorem ok_of_reject {ok : Bool} {message : String} (h : reject ok message = []) : ok = true := by
  unfold reject at h
  split at h
  · assumption
  · cases h

/-- The day of a valid body that has no date. -/
theorem day_of_messages {body : Body} (h : dayOfWeekMessages body = []) (hdate : falsy body.date = true) :
    ∃ d : Int, body.dayOfWeek = some (.num (.finite d)) ∧ 1 ≤ d ∧ d ≤ 7 := by
  rw [dayOfWeekMessages, if_pos hdate, List.append_eq_nil_iff, List.append_eq_nil_iff] at h
  obtain ⟨⟨hmost, hleast⟩, hint⟩ := h
  have hmost := ok_of_reject hmost
  have hleast := ok_of_reject hleast
  have hint := ok_of_reject hint
  unfold isInt at hint
  split at hint
  · next q hq =>
      have hnum : ((q.num : Int) : Rat) = q := (Rat.den_eq_one_iff q).1 (of_decide_eq_true hint)
      rw [hq, isAtLeast, decide_eq_true_eq, ← hnum] at hleast
      rw [hq, isAtMost, decide_eq_true_eq, ← hnum] at hmost
      exact ⟨q.num, by rw [hnum, hq], by exact_mod_cast hleast, by exact_mod_cast hmost⟩
  · cases hint

theorem intColumn_day {d : Int} (hlow : 1 ≤ d) (hhigh : d ≤ 7) :
    intColumn (some (.num (.finite d))) = some (some d) := by
  rw [intColumn, Rat.den_intCast, Rat.num_intCast, if_pos ⟨rfl, by omega, by omega⟩]

/-- A column that is not null holds a number of the body. -/
theorem number_of_intColumn {value : Value} {d : Int} (h : intColumn value = some (some d)) :
    ∃ q, value = some (.num (.finite q)) := by
  unfold intColumn at h
  split at h
  · cases h
  · cases h
  · cases h
  · next q => exact ⟨q, rfl⟩
  · cases h

theorem null_of_intColumn {q : Rat} : intColumn (some (.num (.finite q))) ≠ some none := by
  rw [intColumn]
  split <;> simp

theorem dateColumn_falsy {newDate : Json Number → Option Date} {value : Value}
    (h : falsy value = true) : dateColumn newDate value = some none := by
  cases value with
  | none => rfl
  | some v => rw [dateColumn, if_pos h]

theorem date_of_dateColumn {newDate : Json Number → Option Date} {value : Value} {date : Option Date}
    (h : dateColumn newDate value = some date) (hfalsy : falsy value = false) :
    ∃ d, date = some d := by
  cases value with
  | none => cases hfalsy
  | some v =>
      rw [dateColumn, if_neg (by simp [hfalsy])] at h
      obtain ⟨d, -, rfl⟩ := Option.map_eq_some_iff.1 h
      exact ⟨d, rfl⟩

/-- What a request that is stored went through. -/
structure Stored (isISO8601 : String → Bool) (newDate : Json Number → Option Date) (body : Body)
    (row : Row) : Prop where
  valid : messages isISO8601 body = []
  startTime : time? body.startTime = some row.startTime
  endTime : time? body.endTime = some row.endTime
  reason : row.reason = text? body.reason
  ordered : row.startTime < row.endTime
  dayOfWeek : intColumn body.dayOfWeek = some row.dayOfWeek
  date : dateColumn newDate body.date = some row.date

theorem stored_of_create {isISO8601 : String → Bool} {newDate : Json Number → Option Date}
    {teacherId : Id} {body : Body} {row : Row} (h : create isISO8601 newDate teacherId body = .ok row) :
    Stored isISO8601 newDate body row := by
  simp only [create, validate, bind, Except.bind] at h
  split at h
  · cases h
  · next dto hdto =>
      split at hdto
      · next startTime endTime hvalid hstart hend =>
          obtain rfl := Except.ok.inj hdto
          simp only [declareUnavailability] at h
          split at h
          · cases h
          · next hordered =>
              split at h
              · cases h
              · split at h
                · next dayOfWeek date hday hdate =>
                    obtain rfl := Except.ok.inj h
                    exact ⟨hvalid, hstart, hend, rfl, not_not.1 hordered, hday, hdate⟩
                · cases h
      · cases hdto

/-- A row without a date is on the day of its body. -/
theorem Stored.weekly {isISO8601 : String → Bool} {newDate : Json Number → Option Date} {body : Body}
    {row : Row} (h : Stored isISO8601 newDate body row) (hfalsy : falsy body.date = true) :
    ∃ d, row.dayOfWeek = some d ∧ 1 ≤ d ∧ d ≤ 7 ∧ row.date = none := by
  have hmessages : dayOfWeekMessages body = [] := by
    have hvalid := h.valid
    simp only [messages, List.append_eq_nil_iff] at hvalid
    exact hvalid.1.1.1.1
  obtain ⟨d, hday, hlow, hhigh⟩ := day_of_messages hmessages hfalsy
  have hcolumn := h.dayOfWeek
  rw [hday, intColumn_day hlow hhigh] at hcolumn
  have hdate := h.date
  rw [dateColumn_falsy hfalsy] at hdate
  exact ⟨d, (Option.some.inj hcolumn).symm, hlow, hhigh, (Option.some.inj hdate).symm⟩

/-- **When a row is well formed.** For every body that is valid and stored, the row is weekly on a real day or
on a date, and not both, exactly when the body does not have both a date and a day; and so it is for what is
read as weekly. -/
theorem stored_wellFormed_iff {isISO8601 : String → Bool} {newDate : Json Number → Option Date}
    {teacherId : Id} {body : Body} {row : Row} (h : create isISO8601 newDate teacherId body = .ok row) :
    (row.WellFormed ↔ ¬ body.Both) ∧ (row.WeeklyOnly ↔ ¬ body.Both) := by
  have hstored := stored_of_create h
  have hordered : toMinutes row.startTime < toMinutes row.endTime :=
    (toMinutes_lt_iff _ _).2 hstored.ordered
  have hgood : ¬ body.Both → row.WellFormed := by
    intro hboth
    cases hfalsy : falsy body.date with
    | true => exact ⟨.inl (hstored.weekly hfalsy), hordered⟩
    | false =>
        refine ⟨.inr ⟨?_, date_of_dateColumn hstored.date hfalsy⟩, hordered⟩
        cases hday : row.dayOfWeek with
        | none => rfl
        | some d => exact absurd ⟨hfalsy, number_of_intColumn (hday ▸ hstored.dayOfWeek)⟩ hboth
  have hbad : body.Both → ¬ row.WeeklyOnly := by
    rintro ⟨hfalsy, q, hq⟩ hweekly
    obtain ⟨date, hdate⟩ := date_of_dateColumn hstored.date hfalsy
    cases hday : row.dayOfWeek with
    | none =>
        have hcolumn := hstored.dayOfWeek
        rw [hday, hq] at hcolumn
        exact null_of_intColumn hcolumn
    | some d =>
        have hnone := (hweekly d hday).2.2
        rw [hdate] at hnone
        cases hnone
  exact ⟨⟨fun hrow hboth => hbad hboth hrow.weeklyOnly, hgood⟩,
    fun hweekly hboth => hbad hboth hweekly, fun hboth => (hgood hboth).weeklyOnly⟩

/-- An entry of the timetable says what the row says. -/
structure Row.Is (row : Row) (entry : TeacherAvailability) : Prop where
  teacherId : entry.teacherId = row.teacherId
  dayOfWeek : entry.dayOfWeek.map (fun d => (d : Int)) = row.dayOfWeek
  date : entry.date.isSome = row.date.isSome
  startTime : entry.period.startTime = row.startTime
  endTime : entry.period.endTime = row.endTime
  reason : entry.reason = row.reason

/-- A weekly row is the entry that the timetable declares. -/
theorem timetable_declares {isISO8601 : String → Bool} {newDate : Json Number → Option Date}
    {body : Body} {row : Row} (h : create isISO8601 newDate row.teacherId body = .ok row) {d : Nat}
    (hday : row.dayOfWeek = some (d : Int)) (hdate : row.date = none) {id : Id} {s : World}
    (hid : s.unavailability.contains id = false) :
    ∃ entry, row.Is entry ∧
      Timetable.declareUnavailability row.teacherId
        ⟨some d, none, row.startTime, row.endTime, row.reason⟩ id s =
          .ok { s with unavailability := s.unavailability.insert entry } := by
  have hordered := (stored_of_create h).ordered
  refine ⟨⟨id, row.teacherId, some d, none, ⟨row.startTime, row.endTime, hordered⟩, row.reason⟩,
    ⟨rfl, hday.symm, by simp [hdate], rfl, rfl, rfl⟩, ?_⟩
  simp [Timetable.declareUnavailability, period?, hordered, hid, bind, Except.bind, pure, Except.pure]

/-! ## A weekly row, and one that is dated as well -/

def weeklyBody : Body :=
  ⟨some (.num (.finite 3)), none, some (.str "08:00"), some (.str "10:00"), none⟩

/-- `new Date('2026-03-02')`, and no other date. -/
def march2 : Json Number → Option Date
  | .str text => if text = "2026-03-02" then some ⟨1772409600000⟩ else none
  | _ => none

def eight : Time := ⟨"08:00", accepted_eight⟩
def ten : Time := ⟨"10:00", accepted_ten⟩

theorem stored_wellFormed_iff_weekly : Row.WellFormed ⟨"t1", some 3, none, eight, ten, none⟩ := by
  have hstored : create (· = "2026-03-02") march2 "t1" weeklyBody =
      .ok ⟨"t1", some 3, none, eight, ten, none⟩ := by
    decide +kernel
  exact (stored_wellFormed_iff hstored).1.2 fun hboth => absurd hboth.1 (by decide)

/-- A date, and a day that is no day of the week: both are stored. -/
theorem not_stored_wellFormed :
    ¬ ∀ (isISO8601 : String → Bool) (newDate : Json Number → Option Date) (teacherId : Id) (body : Body)
      (row : Row), create isISO8601 newDate teacherId body = .ok row → row.WellFormed := by
  intro h
  have hstored : create (· = "2026-03-02") march2 "t1"
      { weeklyBody with dayOfWeek := some (.num (.finite 42)), date := some (.str "2026-03-02") } =
        .ok ⟨"t1", some 42, some ⟨1772409600000⟩, eight, ten, none⟩ := by
    decide +kernel
  exact absurd ((h _ _ _ _ _ hstored).weeklyOnly 42 rfl).2.1 (by decide)

end GetPlatform.Timetable.Unavailability
