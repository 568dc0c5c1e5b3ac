import LispForms.Form.Items
import LispForms.Main
import LispForms.Proofs.Ambiguity
import LispForms.Proofs.CharacterLiterals
import LispForms.Proofs.Configuration
import LispForms.Proofs.CursorPlace
import LispForms.Proofs.Enclosing
import LispForms.Proofs.Equality
import LispForms.Proofs.ExactNumbers
import LispForms.Proofs.FilePrinting
import LispForms.Proofs.FloatPrinting
import LispForms.Proofs.FormEnd
import LispForms.Proofs.LineBreaks
import LispForms.Proofs.Progress
import LispForms.Proofs.Resolution
import LispForms.Proofs.Store.Effects
import LispForms.Proofs.Store.Interning
import LispForms.Proofs.Store.PrintedVars
import LispForms.Proofs.StringLiterals
import LispForms.Proofs.SuppressedItems
import LispForms.Proofs.SymbolOrder
