import CodeAssist.Main
import CodeAssist.Proofs.Analysis.Ceiling
import CodeAssist.Proofs.Prompt.Suffix
import CodeAssist.Proofs.CommandLine.SamePrompt
import CodeAssist.Proofs.Prompt.Sizes
import CodeAssist.Proofs.Settings.Footprint
import CodeAssist.Proofs.Settings.Partial
import CodeAssist.Proofs.Cleanup.Repair
import CodeAssist.Proofs.Cleanup.Trimming
import CodeAssist.Proofs.Analysis.Innermost
import CodeAssist.Proofs.Analysis.MinimalBlock
import CodeAssist.Proofs.Cleanup.Echo
import CodeAssist.Proofs.Cleanup.LoneLines
import CodeAssist.Proofs.Tree.Places
import CodeAssist.Proofs.Tree.DepthFirst
import CodeAssist.Proofs.Tree.BreadthFirst
import CodeAssist.Proofs.Analysis.Symbols
import CodeAssist.Proofs.Analysis.Ranking
import CodeAssist.Proofs.Cleanup.CommentsOnly
import CodeAssist.Proofs.Prompt.Selection
import CodeAssist.Proofs.Prompt.Filling
import CodeAssist.Proofs.Prompt.Commented
import CodeAssist.Proofs.Cleanup.OwnLine
import CodeAssist.Proofs.Text.Offsets
import CodeAssist.Proofs.Text.Pieces
import CodeAssist.Proofs.Text.Visible
import CodeAssist.Proofs.Text.Segments
import CodeAssist.Proofs.Cleanup.ErrorFree
