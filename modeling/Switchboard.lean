import Switchboard.Http.Service
import Switchboard.Main
import Switchboard.Proofs.BatchIsolation
import Switchboard.Proofs.CacheRuns
import Switchboard.Proofs.CallDepth
import Switchboard.Proofs.BatchReplies
import Switchboard.Proofs.IsolatedCalls
import Switchboard.Proofs.OutputOrder
import Switchboard.Proofs.ReplyDelivery
import Switchboard.Proofs.RequestEnd
import Switchboard.Proofs.UncachedAnswers
import Switchboard.Proofs.Grammar
import Switchboard.Proofs.Nesting
import Switchboard.Proofs.FaultOrigins
import Switchboard.Proofs.TwinRuns
import Switchboard.Proofs.OutputCauses
import Switchboard.Proofs.Answers
import Switchboard.Proofs.ChangedSources
import Switchboard.Proofs.PathSafety
import Switchboard.Proofs.DottedPaths
import Switchboard.Proofs.TokenPlaces
import Switchboard.Proofs.DistinctPlaces
import Switchboard.Proofs.QuotedComments
import Switchboard.Proofs.EnvelopeText
import Switchboard.Proofs.ParameterOverlays
import Switchboard.Proofs.NumberForms
import Switchboard.Proofs.ShiftedPlaces
import Switchboard.Proofs.ScannerProgress
import Switchboard.Proofs.ClearedRequests
import Switchboard.Proofs.HeaderFields
