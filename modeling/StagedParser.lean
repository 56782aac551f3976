import StagedParser.Cursor.Script
import StagedParser.Match.Script
import StagedParser.Name.Script
import StagedParser.Recipe
import StagedParser.Probe
import StagedParser.Session
import StagedParser.Store.Parse
import StagedParser.Settings.Request
import StagedParser.Settings.Search
import StagedParser.Workbench.Script
import StagedParser.Proofs.Code.Emission
import StagedParser.Proofs.Code.Form
import StagedParser.Proofs.Code.Generated
import StagedParser.Proofs.Code.Running
import StagedParser.Proofs.Code.Simulation
import StagedParser.Proofs.Cursor.Canonical
import StagedParser.Proofs.Grammar.Denotation
import StagedParser.Proofs.Grammar.Interpretation
import StagedParser.Proofs.Grammar.Meaning
import StagedParser.Proofs.Grammar.Nodes
import StagedParser.Proofs.Name.Texts
import StagedParser.Proofs.Number.Whole
import StagedParser.Proofs.Parsing.Records
import StagedParser.Proofs.Staging.Agreement
import StagedParser.Proofs.Staging.Outcome
import StagedParser.Proofs.Stock.Contract
import StagedParser.Proofs.Cursor.Reachable
import StagedParser.Proofs.Grammar.Choice
import StagedParser.Proofs.Code.Renumbering
import StagedParser.Proofs.Cursor.Walking
import StagedParser.Proofs.Parsing.Orderly
import StagedParser.Proofs.Cursor.Travelled
import StagedParser.Proofs.Name.Scopes
import StagedParser.Proofs.Settings.Fields
import StagedParser.Proofs.Settings.Priority
import StagedParser.Proofs.Settings.Layers
import StagedParser.Proofs.Settings.Paths
import StagedParser.Proofs.Settings.Reordering
import StagedParser.Proofs.Settings.Variables
import StagedParser.Proofs.Settings.Spelling
import StagedParser.Proofs.Grammar.Laws
import StagedParser.Proofs.Text.Literals
import StagedParser.Proofs.Code.Printing
import StagedParser.Proofs.Grammar.WholeTexts
import StagedParser.Proofs.Cursor.Suffixes
import StagedParser.Proofs.Grammar.Suffixes
import StagedParser.Proofs.Parsing.Surroundings
import StagedParser.Proofs.Grammar.Faults
import StagedParser.Proofs.Cursor.Runs
import StagedParser.Proofs.Cursor.Scanning
import StagedParser.Proofs.Cursor.Order
import StagedParser.Proofs.Code.Landmarks
import StagedParser.Proofs.Code.SelfContained
import StagedParser.Proofs.Settings.Lens
import StagedParser.Proofs.Session.Isolation
import StagedParser.Proofs.Workbench.Table
import StagedParser.Proofs.Workbench.Slots
