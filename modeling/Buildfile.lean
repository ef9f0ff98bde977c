import Buildfile.SourceRange.Json
import Buildfile.Proofs.BackslashRuns
import Buildfile.Proofs.BlockDiscipline
import Buildfile.Proofs.CallGroups
import Buildfile.Proofs.Continuations
import Buildfile.Proofs.CopySources
import Buildfile.Proofs.Diagnostics
import Buildfile.Proofs.FlagGrammar
import Buildfile.Proofs.Labels
import Buildfile.Proofs.Platforms
import Buildfile.Proofs.PushOnlyMode
import Buildfile.Proofs.VariableKeys
import Buildfile.Proofs.Specifiers
import Buildfile.Proofs.OtherNames
import Buildfile.Proofs.BlockRounds
import Buildfile.Proofs.HeaderAnswers
import Buildfile.Proofs.CoveredRanges
import Buildfile.Proofs.CloneFamilies
import Buildfile.Proofs.Deprecations
import Buildfile.Proofs.SpreadLineEnds
