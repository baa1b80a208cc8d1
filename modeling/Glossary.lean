import Glossary.Session
import Glossary.Settings.Reader
import Glossary.Proofs.Key
import Glossary.Proofs.Layer.WellFormed
import Glossary.Proofs.Layer.Prune
import Glossary.Proofs.Layer.Graft
import Glossary.Proofs.Layer.Reachable
import Glossary.Proofs.Layer.Pairing
import Glossary.Proofs.Layer.Covers
import Glossary.Proofs.Layer.Succession
import Glossary.Proofs.Layer.Account
import Glossary.Proofs.Layer.Busy
import Glossary.Proofs.Layer.Survival
import Glossary.Proofs.Layer.Stack
import Glossary.Proofs.World.Walk
import Glossary.Proofs.Json.Text
import Glossary.Proofs.Json.Container
import Glossary.Proofs.Json.Grammar
import Glossary.Proofs.Json.Token
import Glossary.Proofs.Json.Pass
import Glossary.Proofs.Json.Layout
import Glossary.Proofs.Settings.Check
import Glossary.Proofs.Settings.RoundTrip
import Glossary.Proofs.Settings.Steady
import Glossary.Proofs.Settings.Report
import Glossary.Proofs.Settings.Parts
import Glossary.Proofs.Settings.Document
import Glossary.Proofs.Lexicon.Pairing
import Glossary.Proofs.Lexicon.Keeping
import Glossary.Proofs.Lexicon.Reflects
import Glossary.Proofs.Lexicon.Reading
import Glossary.Proofs.Lexicon.Growth
import Glossary.Proofs.Lexicon.RoundTrip
import Glossary.Proofs.Lexicon.Writing
import Glossary.Proofs.Lexicon.History
import Glossary.Proofs.Lexicon.Task
import Glossary.Proofs.Lexicon.Relabel
import Glossary.Proofs.Lexicon.Trace
import Glossary.Proofs.Lexicon.Launch
import Glossary.Proofs.Session.Ledger
import Glossary.Proofs.Session.Refinement
