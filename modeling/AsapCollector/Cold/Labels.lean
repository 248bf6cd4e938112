import Mathlib.Data.Prod.Lex
import AsapCollector.Lib.StringMap

/-! What the cold tier uses of `prometheus/model/labels`, as that package documents it. -/

namespace AsapCollector

/-- `labels.Labels`: label names with their values, in ascending order of name. -/
abbrev Labels := StringMap

namespace Labels

/-- `labels.Builder.Set`: an empty value deletes the label. -/
def setLabel (ls : Labels) (name value : Bytes) : Labels :=
  if value = [] then ls.erase name else ls.set name value

/-- `Labels.Get`: the empty string for a label that is not there. -/
def getLabel (ls : Labels) (name : Bytes) : Bytes := (ls.entries.lookup name).getD []

/-- What `labels.Compare` compares: label by label, the name before the value, a shorter set first. -/
def order (ls : Labels) : List (Bytes ×ₗ Bytes) := ls.entries.map toLex

end Labels

structure Matcher where
  name : Bytes
  isMatch : Bytes → Bool

end AsapCollector
