import Concord.Check.Basic
import Concord.Component.Tree
import Concord.Proofs.ComponentIndependence
import Concord.Proofs.Lexemes
import Concord.Proofs.MaskedLexemes
import Concord.Proofs.ScanSteps
import Concord.Proofs.MaskedNesting
import Concord.Proofs.BalancedText
import Concord.Proofs.ExportTokens
import Concord.Proofs.SeenTokens
import Concord.Proofs.ReadExpressions
import Concord.Proofs.ReadClauses
import Concord.Proofs.ReadStatements
import Concord.Proofs.ExtractBalance
import Concord.Proofs.BalancedRuns
import Concord.Proofs.Pieces
import Concord.Proofs.PatternEntries
import Concord.Proofs.Clauses
import Concord.Proofs.PatternBalance
import Concord.Proofs.Positions
import Concord.Proofs.ExportPositions
import Concord.Proofs.OpenClauses
import Concord.Proofs.ClearedTokens
import Concord.Proofs.AlikeTokens
import Concord.Proofs.UncommentedExports
import Concord.Proofs.FirstOccurrences
import Concord.Proofs.SlotHolders
import Concord.Proofs.Accounting
import Concord.Proofs.FaultLines
import Concord.Proofs.RuleReports
import Concord.Proofs.Locations
import Concord.Proofs.HandlerRules
import Concord.Proofs.RuleOrder
import Concord.Proofs.StoreAndView
import Concord.Proofs.DistinctFindings
import Concord.Proofs.FileNames
import Concord.Proofs.SuffixMatches
import Concord.Proofs.Classifying
import Concord.Proofs.RoleCollisions
import Concord.Proofs.Flags
import Concord.Proofs.BrokenFiles
import Concord.Proofs.Items
import Concord.Proofs.LoweredTokens
import Concord.Proofs.JoinedExports
import Concord.Proofs.ItemCuts
import Concord.Proofs.PatternSyntax
import Concord.Proofs.PatternLeaves
import Concord.Proofs.WordsAndGroups
import Concord.Proofs.Assignments
import Concord.Proofs.Destructuring
import Concord.Proofs.DeclaratorLists
import Concord.Proofs.ReexportLists
import Concord.Proofs.TypeExpressions
import Concord.Proofs.TypeArguments
import Concord.Proofs.FunctionTexts
import Concord.Proofs.MaskStates
import Concord.Proofs.MaskedBytes
import Concord.Proofs.MemberSearch
import Concord.Proofs.SpacedCode
import Concord.Proofs.MembersInCode
import Concord.Proofs.FirstReturns
import Concord.Proofs.SpreadReads
import Concord.Proofs.ProjectionKeys
import Concord.Proofs.CollectedSources
import Concord.Proofs.JsonStrings
import Concord.Proofs.JsonTexts
import Concord.Json.Record
import Concord.Proofs.JsonNumbers
import Concord.Report.Reader
import Concord.Proofs.JsonValues
import Concord.Proofs.SettingsTexts
import Concord.Proofs.JsonRecords
import Concord.Proofs.ReportTexts
import Concord.Proofs.LiteralKeys
import Concord.Proofs.FirstPlaces
import Concord.Proofs.Places
import Concord.Proofs.GroupInteriors
import Concord.Proofs.FirstAssignments
import Concord.Proofs.ExactCuts
import Concord.Proofs.BytewiseReading
import Concord.Proofs.Operations
