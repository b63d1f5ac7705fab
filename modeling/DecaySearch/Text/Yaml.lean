-- YAML texts, without anchors, tags, directives and block scalars. A text holds one
-- document. A plain scalar is only read as a number, a truth value or null when a
-- field asks for one.
import DecaySearch.Text.Record
import DecaySearch.Text.Yaml.Number
import DecaySearch.Text.Yaml.Tree

namespace DecaySearch.Text.Yaml

def ofText? (text : String) : Option Yaml :=
  if text.toList.all isPrintable then (tokens? (unifyBreaks text.toList)).bind ofTokens?
  else none

/-- Where nothing is written, a list or a record is empty. -/
instance : Structured Yaml where
  toFloat?
    | .scalar s true => doubleOf? s
    | _ => none
  toInt?
    | .scalar s true => (naturalOf? s).map fun n => (n : Int)
    | _ => none
  toBool?
    | .scalar s true => boolOf? s
    | _ => none
  toText?
    | .scalar s _ => some s
    | _ => none
  toItems?
    | .sequence items => some items
    | .scalar "" true => some []
    | _ => none
  toFields?
    | _, .scalar "" true => some []
    | _, .mapping entries => entries.mapM fun (key, value) =>
        match key with
        | .scalar name _ => some (name, value)
        | _ => none
    | _, _ => none
  isAbsent
    | .scalar s true => isNullText s
    | _ => false

end DecaySearch.Text.Yaml
