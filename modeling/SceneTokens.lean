import SceneTokens.Main
import SceneTokens.Stream.Script
import SceneTokens.Proofs.Tiling
import SceneTokens.Proofs.Scope
import SceneTokens.Proofs.LineStart
import SceneTokens.Proofs.IndentStack
import SceneTokens.Proofs.Diagnosis
import SceneTokens.Proofs.Append
import SceneTokens.Proofs.Balance
import SceneTokens.Proofs.Grammar
import SceneTokens.Proofs.Ledger
import SceneTokens.Proofs.LineEnds
import SceneTokens.Proofs.Spelling
import SceneTokens.Proofs.Termination
import SceneTokens.Proofs.Insertion
import SceneTokens.Proofs.Listing
import SceneTokens.Proofs.StringLiterals
import SceneTokens.Proofs.AfterFault
import SceneTokens.Proofs.Spacing
import SceneTokens.Proofs.Decoding
import SceneTokens.Proofs.BareMessages
import SceneTokens.Proofs.EditorRanges
import SceneTokens.Proofs.Carets
import SceneTokens.Proofs.SnippetLines
import SceneTokens.Proofs.Outcomes
import SceneTokens.Proofs.Templates
import SceneTokens.Proofs.Values
import SceneTokens.Proofs.Renderings
