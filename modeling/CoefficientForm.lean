import CoefficientForm.Coefficients.Json
import CoefficientForm.Form.Summary
import CoefficientForm.Main
import CoefficientForm.Proofs.Field
import CoefficientForm.Proofs.Form.Step
import CoefficientForm.Report.Json
import CoefficientForm.Proofs.Entry
import CoefficientForm.Proofs.Form.Representation
import CoefficientForm.Proofs.Form.Slots
import CoefficientForm.Proofs.Form.Submission
import CoefficientForm.Proofs.Decimal.Nearest
import CoefficientForm.Proofs.Decimal.Text
import CoefficientForm.Proofs.Form.History
import CoefficientForm.Proofs.Binary64.Text
import CoefficientForm.Proofs.Coefficients.Query
import CoefficientForm.Proofs.Json.Grammar
import CoefficientForm.Proofs.Json.Literal
import CoefficientForm.Proofs.Json.Number
import CoefficientForm.Proofs.Json.Reader
import CoefficientForm.Proofs.Json.Printer
import CoefficientForm.Proofs.Report.Json
import CoefficientForm.Proofs.Form.Since
import CoefficientForm.Proofs.Form.Banner
import CoefficientForm.Proofs.Form.Delivery
import CoefficientForm.Proofs.Form.Refusal
import CoefficientForm.Proofs.Form.Forgetting
import CoefficientForm.Proofs.Decimal.Digits
import CoefficientForm.Proofs.Json.Digits
import CoefficientForm.Proofs.Coefficients.Json
import CoefficientForm.Proofs.Form.Filling
import CoefficientForm.Proofs.Form.Reentry
import CoefficientForm.Proofs.Command.Collect
import CoefficientForm.Proofs.Command.Reentry
import CoefficientForm.Proofs.Binary64.Floor
import CoefficientForm.Proofs.Exponent.Nearest
import CoefficientForm.Proofs.Exponent.Corrections
import CoefficientForm.Proofs.Form.Log
import CoefficientForm.Proofs.Report.Presentation
import CoefficientForm.Proofs.Binary64.Nearest
import CoefficientForm.Proofs.Binary64.Spacing
import CoefficientForm.Proofs.Decimal.Value
import CoefficientForm.Proofs.Decimal.Numeral
import CoefficientForm.Proofs.Binary64.Denoted
import CoefficientForm.Proofs.Degree.Verdict
import CoefficientForm.Proofs.Degree.Written
import CoefficientForm.Proofs.Form.Extraction
import CoefficientForm.Proofs.Binary64.Operations
import CoefficientForm.Proofs.Exponent.TwoPlaces
import CoefficientForm.Proofs.Field.History
import CoefficientForm.Proofs.Coefficients.Factorable
import CoefficientForm.Proofs.Entry.Verdict
import CoefficientForm.Proofs.Exponent.Digits
import CoefficientForm.Proofs.Exponent.Messages
import CoefficientForm.Proofs.Coefficients.Views
import CoefficientForm.Proofs.Field.Name
import CoefficientForm.Proofs.Command.Options
import CoefficientForm.Proofs.Command.Outcome
import CoefficientForm.Proofs.Exponent.Accuracy
import CoefficientForm.Proofs.Exponent.Canonical
