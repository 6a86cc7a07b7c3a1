import Stencil.Config.Document
import Stencil.Config.Environment
import Stencil.Engine
import Stencil.Error
import Stencil.Proofs.Engine.Provenance
import Stencil.Proofs.Markup.Print
import Stencil.Proofs.Markup.Tiling
import Stencil.Proofs.Render.FreeKey
import Stencil.Proofs.Render.Settling
import Stencil.Proofs.Render.Total
import Stencil.Proofs.Template.Composition
import Stencil.Proofs.Template.Literal
import Stencil.Proofs.Template.FirstFault
import Stencil.Proofs.Template.QuotedOperand
import Stencil.Proofs.Template.Refusal
import Stencil.Proofs.Template.Verbatim
import Stencil.Proofs.Tree.Nesting
import Stencil.Proofs.Tree.Outcome
import Stencil.Proofs.Value.Privacy
import Stencil.Proofs.Render.Privacy
import Stencil.Proofs.Path.Grammar
import Stencil.Proofs.Path.Reading
import Stencil.Proofs.Path.Respelling
import Stencil.Proofs.Condition.Spelling
import Stencil.Proofs.Iteration.Spelling
import Stencil.Proofs.Condition.Unfinished
import Stencil.Proofs.Directive.BracketedKeys
import Stencil.Proofs.Markup.Scanning
import Stencil.Proofs.Yaml.Building
import Stencil.Proofs.Yaml.Reading
import Stencil.Proofs.Yaml.Scanning
import Stencil.Proofs.Config.Loading
import Stencil.Proofs.Config.Overriding
import Stencil.Proofs.Condition.NumericText
import Stencil.Proofs.Condition.Ordering
