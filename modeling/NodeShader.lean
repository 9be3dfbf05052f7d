import NodeShader.Main
import NodeShader.Proofs.Compile.Wiring
import NodeShader.Proofs.Formula.Substitution
import NodeShader.Proofs.Compile.Correctness
import NodeShader.Proofs.Formula.WellTyped
import NodeShader.Proofs.Compile.Strictness
import NodeShader.Proofs.Compile.Unneeded
import NodeShader.Proofs.Compile.SelectedColor
import NodeShader.Proofs.Compile.Dangling
import NodeShader.Proofs.Compile.Constants
import NodeShader.Proofs.Formula.Derivation
import NodeShader.Proofs.Floating.Magnitude
import NodeShader.Proofs.Floating.ReadBack
import NodeShader.Proofs.Formula.Meaning
import NodeShader.Proofs.Formula.Rereading
import NodeShader.Proofs.Wgsl.Vocabulary
import NodeShader.Proofs.Compile.Injection
import NodeShader.Proofs.Compile.Allocation
import NodeShader.Proofs.Graph.Cuts
import NodeShader.Proofs.Graph.Recursion
import NodeShader.Proofs.Graph.Reachability
import NodeShader.Proofs.Compile.LastStatement
import NodeShader.Proofs.Compile.Arrangement
import NodeShader.Proofs.Compile.Rewording
import NodeShader.Proofs.Compile.Substitution
import NodeShader.Proofs.Compile.Renaming
import NodeShader.Proofs.Formula.Judgement
import NodeShader.Proofs.Formula.Literals
import NodeShader.Proofs.Formula.Misordered
import NodeShader.Proofs.Compile.CircleEdges
import NodeShader.Proofs.Floating.Patterns
import NodeShader.Proofs.Compile.Completion
import NodeShader.Proofs.Formula.Hygiene
import NodeShader.Proofs.Formula.Height
import NodeShader.Proofs.Formula.Segmentation
import NodeShader.Proofs.CommandLine.Delivery
