import DiceNotation.Host
import DiceNotation.Main
import DiceNotation.Proofs.Evaluation.Course
import DiceNotation.Proofs.Reading.LevelScan
import DiceNotation.Proofs.Reading.Locality
import DiceNotation.Proofs.Reading.NormalForm
import DiceNotation.Proofs.Evaluation.FinishedNodes
import DiceNotation.Proofs.Reading.Grammar
import DiceNotation.Proofs.Reading.Literals
import DiceNotation.Proofs.Evaluation.Range
import DiceNotation.Proofs.Evaluation.Replay
import DiceNotation.Proofs.Evaluation.Session
import DiceNotation.Proofs.TokenStream.Numerals
import DiceNotation.Proofs.Answers.Members
import DiceNotation.Proofs.Evaluation.Recording
import DiceNotation.Proofs.TokenStream.Spelling
import DiceNotation.Proofs.Reading.Places
import DiceNotation.Proofs.Reading.Telling
import DiceNotation.Proofs.TokenStream.Spacing
import DiceNotation.Proofs.Answers.Writing
import DiceNotation.Proofs.Answers.Agreement
import DiceNotation.Proofs.Answers.Spacing
import DiceNotation.Proofs.Settings.Loading
import DiceNotation.Proofs.Answers.Safety
import DiceNotation.Proofs.Settings.Search
import DiceNotation.Proofs.Runs.Hindrances
import DiceNotation.Proofs.Runs.Outcomes
import DiceNotation.Proofs.Runs.Serving
import DiceNotation.Proofs.TokenStream.Flaws
import DiceNotation.Proofs.Evaluation.Trails
import DiceNotation.Proofs.Evaluation.Accounts
import DiceNotation.Proofs.Settings.Nearest
import DiceNotation.Proofs.Runs.Starts
import DiceNotation.Proofs.Evaluation.Bounds
import DiceNotation.Proofs.Answers.Rendering
import DiceNotation.Proofs.Answers.Sums
import DiceNotation.Proofs.Evaluation.Folding
import DiceNotation.Proofs.Answers.Integers
import DiceNotation.Proofs.Settings.Anywhere
import DiceNotation.Proofs.Answers.Caret
import DiceNotation.Proofs.Evaluation.Noting
import DiceNotation.Proofs.Evaluation.Interruptions
import DiceNotation.Proofs.Runs.Verbosity
import DiceNotation.Proofs.Runs.VerboseLog
import DiceNotation.Proofs.Runs.Words
import DiceNotation.Proofs.Evaluation.RunningSums
import DiceNotation.Proofs.Settings.Hints
