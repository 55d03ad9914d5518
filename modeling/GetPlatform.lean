import GetPlatform.Store.Table
import GetPlatform.Store.Program
import GetPlatform.Store.Semantics
import GetPlatform.Store.Trace
import GetPlatform.Store.Pool
import GetPlatform.Store.Invariant
import GetPlatform.Store.Alone
import GetPlatform.Store.History
import GetPlatform.Store.Record
import GetPlatform.Admission.Types
import GetPlatform.Admission.World
import GetPlatform.Admission.ApplicationService
import GetPlatform.Admission.PaymentService
import GetPlatform.Admission.Guards
import GetPlatform.Admission.Frames
import GetPlatform.Admission.Capacity
import GetPlatform.Admission.StatusMachine
import GetPlatform.Admission.Settlement
import GetPlatform.Admission.LivePayment
import GetPlatform.Admission.DoubleCollection
import GetPlatform.Admission.Ledger
import GetPlatform.Admission.Refund
import GetPlatform.Admission.Enrolment
import GetPlatform.Admission.Outcome
import GetPlatform.Admission.Admitted
import GetPlatform.Admission.Backing
import GetPlatform.Auth.Types
import GetPlatform.Auth.World
import GetPlatform.Auth.AuthService
import GetPlatform.Auth.Guards
import GetPlatform.Auth.Revocation
import GetPlatform.Auth.Chains
import GetPlatform.Auth.Rotation
import GetPlatform.Auth.Kinds
import GetPlatform.Auth.Counters
import GetPlatform.Auth.Attempts
import GetPlatform.Auth.Lockout
import GetPlatform.Auth.Registration
import GetPlatform.Auth.Logout
import GetPlatform.Auth.Stale
import GetPlatform.Auth.PasswordReset
import GetPlatform.Auth.SecondFactor
import GetPlatform.Auth.Challenges
import GetPlatform.Auth.Issuing
import GetPlatform.Auth.Honoured
import GetPlatform.Auth.Reuse
import GetPlatform.Auth.Browser
import GetPlatform.Auth.SingleFlight
import GetPlatform.Auth.Guesses
import GetPlatform.Order.Overlap
import GetPlatform.Timetable.Time
import GetPlatform.Timetable.Types
import GetPlatform.Timetable.World
import GetPlatform.Timetable.TeacherAvailabilityService
import GetPlatform.Timetable.SchoolService
import GetPlatform.Timetable.SchedulingService
import GetPlatform.Timetable.ScheduleGenerationService
import GetPlatform.Timetable.Agreement
import GetPlatform.Timetable.TimeSlots
import GetPlatform.Timetable.TeacherTimetable
import GetPlatform.Timetable.ClassTimetable
import GetPlatform.Store.Journal
import GetPlatform.Planning.Types
import GetPlatform.Planning.World
import GetPlatform.Planning.AcademicYearService
import GetPlatform.Planning.SchedulingService
import GetPlatform.Planning.Effects
import GetPlatform.Planning.Tenancy
import GetPlatform.Planning.Years
import GetPlatform.Store.Firm
import GetPlatform.Planning.CurrentYear
import GetPlatform.Order.PairKey
import GetPlatform.Text
import GetPlatform.Messages.Types
import GetPlatform.Messages.World
import GetPlatform.Messages.MessageService
import GetPlatform.Messages.Conversations
import GetPlatform.Messages.LastMessage
import GetPlatform.Coursework.World
import GetPlatform.Coursework.Submissions
import GetPlatform.Coursework.Frozen
import GetPlatform.Admission.Waitlist
import GetPlatform.Store.Extend
import GetPlatform.Admission.Intake
import GetPlatform.Admission.Seats
import GetPlatform.Admission.Replay
import GetPlatform.Admission.Timeline
import GetPlatform.Admission.Submission
import GetPlatform.Store.Reliable
import GetPlatform.Timetable.Placement
import GetPlatform.Timetable.Settled
import GetPlatform.Timetable.Idempotence
import GetPlatform.Store.Watch
import GetPlatform.Store.Solo
import GetPlatform.Timetable.Accounting
import GetPlatform.Timetable.Report
import GetPlatform.Timetable.Coverage
import GetPlatform.Coursework.Chapters
import GetPlatform.Store.Map
import GetPlatform.Order.Compare
import GetPlatform.Format.Json
import GetPlatform.Format.Date
import GetPlatform.Ministry.Types
import GetPlatform.Ministry.MinistryService
import GetPlatform.Ministry.Counts
import GetPlatform.Ministry.RecordOrder
import GetPlatform.Order.Pages
import GetPlatform.Format.Number
import GetPlatform.Ministry.ComplianceService
import GetPlatform.Ministry.Compliance
import GetPlatform.Format.Csv
import GetPlatform.Ministry.ReportExporter
import GetPlatform.Ministry.CsvExport
import GetPlatform.Ministry.Figures
import GetPlatform.Format.Xml
import GetPlatform.Ministry.SpreadsheetExport
import GetPlatform.Format.Chain
import GetPlatform.Audit.AuditInterceptor
import GetPlatform.Uploads.StorageService
import GetPlatform.Uploads.PublicUrl
import GetPlatform.Format.Bytes
import GetPlatform.Profile.EncryptionService
import GetPlatform.Store.Sweep
import GetPlatform.Profile.Types
import GetPlatform.Profile.Remediation
import GetPlatform.Profile.StudentService
import GetPlatform.Profile.Completion
import GetPlatform.Teaching.Types
import GetPlatform.Teaching.World
import GetPlatform.Teaching.TeachingService
import GetPlatform.Teaching.Attendance
import GetPlatform.Store.Gather
import GetPlatform.Notifications.World
import GetPlatform.Notifications.NotificationService
import GetPlatform.Order.Distinct
import GetPlatform.Notifications.Delivery
import GetPlatform.Teaching.StudentService
import GetPlatform.Teaching.Visibility
import GetPlatform.Uploads.Site
import GetPlatform.Uploads.ProtectedUploads
import GetPlatform.Uploads.ApplicationDocuments
import GetPlatform.Enrollment.Backfill
import GetPlatform.Enrollment.Rerun
import GetPlatform.Format.Pdf
import GetPlatform.Printing.PdfFile
import GetPlatform.Printing.Documents
import GetPlatform.Printing.Wrapping
import GetPlatform.Order.Ties
import GetPlatform.Listings.Pagination
import GetPlatform.Listings.Listings
import GetPlatform.Format.Numeral
import GetPlatform.Format.CsvFile
import GetPlatform.Format.Strip
import GetPlatform.Browser.StudentImport
import GetPlatform.Admission.Charge
import GetPlatform.Admission.Sessions
import GetPlatform.Timetable.Unavailability
import GetPlatform.Auth.Addresses
import GetPlatform.Integration.IntegrationService
import GetPlatform.Integration.Reminders
import GetPlatform.Order.Execution
import GetPlatform.Browser.ApiClient
import GetPlatform.Store.Learned
import GetPlatform.Store.Indexed
import GetPlatform.Schools.Types
import GetPlatform.Schools.World
import GetPlatform.Schools.SchoolService
import GetPlatform.Schools.Facts
import GetPlatform.Schools.Borders
import GetPlatform.Store.Keeps
import GetPlatform.Schools.Statements
import GetPlatform.Schools.Levels
import GetPlatform.Schools.CourseLists
import GetPlatform.Schools.Labels
import GetPlatform.Schools.Imports
import GetPlatform.Timetable.Rooms
import GetPlatform.Deposits.Served
import GetPlatform.Classroom.Held
