import Dataspace.Text.Quoted
import Dataspace.Time.Reader
import Dataspace.Contract.Comparison
import Dataspace.Contract.Writer
import Dataspace.Config.Reader
import Dataspace.Message.Text
import Dataspace.Multipart
import Dataspace.Http
import Dataspace.Engine
import Dataspace.Assembly
import Dataspace.Proofs.Session
import Dataspace.Proofs.ContractDocument
import Dataspace.Proofs.MultipartForm
import Dataspace.Proofs.FailurePolicies
import Dataspace.Proofs.Entitlement
import Dataspace.Proofs.HttpNegotiation
import Dataspace.Proofs.UsageWindow
import Dataspace.Proofs.Rejection
import Dataspace.Proofs.FailureClass
import Dataspace.Proofs.TokenSecrecy
import Dataspace.Proofs.Identifiers
import Dataspace.Proofs.Recurrence
import Dataspace.Proofs.Stock
import Dataspace.Proofs.Logbook
import Dataspace.Proofs.Restatement
import Dataspace.Proofs.TornForm
import Dataspace.Proofs.ReplyFaults
import Dataspace.Proofs.HeaderLayers
import Dataspace.Proofs.HttpOutcome
import Dataspace.Proofs.DescriptionDownload
import Dataspace.Proofs.PayloadTypes
import Dataspace.Proofs.BodyForms
import Dataspace.Proofs.ExchangeOutcome
import Dataspace.Proofs.MessageBuilding
import Dataspace.Proofs.NamedParts
import Dataspace.Proofs.Encodings
import Dataspace.Proofs.Choices
import Dataspace.Proofs.RecipientList
