import ScriptedResponder.Main
import ScriptedResponder.Proofs.Store.Counts
import ScriptedResponder.Proofs.Store.Sweeping
import ScriptedResponder.Proofs.Delivery.Contention
import ScriptedResponder.Proofs.Condition.Reading
import ScriptedResponder.Proofs.Action.Reading
import ScriptedResponder.Proofs.Scenario.Entries
import ScriptedResponder.Proofs.Scenario.Unswept
import ScriptedResponder.Proofs.Http.Admission
import ScriptedResponder.Proofs.Http.Feedback
import ScriptedResponder.Proofs.Scenario.Residue
import ScriptedResponder.Proofs.Scenario.Log
import ScriptedResponder.Proofs.Settings.Launch
import ScriptedResponder.Proofs.Phrase.Calls
import ScriptedResponder.Proofs.Event.Encoded
import ScriptedResponder.Proofs.Http.Decoding
import ScriptedResponder.Proofs.Settings.Order
