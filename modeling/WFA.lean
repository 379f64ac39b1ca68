import WFA.Base.Text
import WFA.Base.Iterator
import WFA.Base.Ledger
import WFA.Shared.Response
import WFA.Shared.Decode
import WFA.Shared.Render
import WFA.Shared.DecoderSafety
import WFA.Shared.RoundTrip
import WFA.Shared.Forging
import WFA.Shared.Unformatted
import WFA.Shared.Adding
import WFA.Base.Occurrence
import WFA.Base.Nesting
import WFA.Base.Numeral
import WFA.Translator.Template
import WFA.Translator.Conditions
import WFA.Translator.Print
import WFA.Translator.ParsePrint
import WFA.Translator.TagSearch
import WFA.Translator.TemplateSafety
import WFA.Base.Table
import WFA.Base.Column
import WFA.Base.Run
import WFA.Base.Emission
import WFA.Base.Each
import WFA.Base.Grid
import WFA.Base.Script
import WFA.Base.Unique
import WFA.Translator.Apply
import WFA.Translator.Meaning
import WFA.Translator.Reads
import WFA.Translator.Disclosure
import WFA.Translator.Forwarding
import WFA.Translator.Wire
import WFA.Translator.Links
import WFA.Shared.Query
import WFA.Base.Percent
import WFA.Shared.UrlValues
import WFA.Server.Database
import WFA.Server.Network
import WFA.Server.Cookies
import WFA.Server.Auth
import WFA.Server.SessionHistory
import WFA.Server.User
import WFA.Server.Records
import WFA.Server.Vehicle
import WFA.Server.Parts
import WFA.Server.Services
import WFA.Server.ServiceViews
import WFA.Server.ServiceEffects
import WFA.Server.Lifecycle
import WFA.Server.ServiceReports
import WFA.Server.ServiceIds
import WFA.Server.UpdateClauses
import WFA.Server.UpdateForms
import WFA.Server.UserEffects
import WFA.Server.Permissions
import WFA.Server.UserRuns
import WFA.Server.Passwords
import WFA.Server.Accounts
import WFA.Server.PartViews
import WFA.Server.Routes
import WFA.Server.Statements
import WFA.Server.VehicleRuns
import WFA.Server.Constraints
import WFA.Server.CleanTexts
import WFA.Server.Answers
import WFA.System.Clients
import WFA.System.Net
import WFA.System.Site
import WFA.Server.Containment
import WFA.Server.Accesses
import WFA.Server.AccessChecks
import WFA.Server.Rejections
import WFA.Server.Totality
import WFA.Server.Quantities
import WFA.Server.PartsUsed
import WFA.Server.QuantityTexts
import WFA.Server.ClosedRecords
import WFA.Server.ClosedTotals
import WFA.Server.ClosedRuns
import WFA.Server.ServiceSelection
import WFA.Server.ServiceAgreement
import WFA.Server.Console
