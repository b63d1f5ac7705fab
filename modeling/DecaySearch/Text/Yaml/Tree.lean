-- YAML values, and how they are put together from tokens. Where a key, a value or
-- an item is left out, an empty plain scalar stands for it.
import DecaySearch.Text.Yaml.Token

namespace DecaySearch.Text

/-- A YAML value. Mappings keep the order and the repetitions of their keys. -/
inductive Yaml
  | scalar (text : String) (plain : Bool)
  | sequence (items : List Yaml)
  | mapping (entries : List (Yaml × Yaml))

namespace Yaml

/-- The value of a place where nothing is written. -/
def nothing : Yaml := .scalar "" true

/-- Truth that one of some tokens comes next. -/
def comesNext (tokens expected : List Token) : Bool := tokens.head?.any expected.contains

/-- The tokens that end a value in a block mapping. -/
def blockEnders : List Token := [.key, .value, .blockEnd]

mutual

/-- Takes a value. Blocks can only stand in blocks, and a sequence without
indentation only in a mapping. -/
def takeNode : Nat → Bool → Bool → List Token → Option (Yaml × List Token)
  | 0, _, _, _ => none
  | fuel + 1, inBlock, inMapping, tokens =>
    match tokens with
    | .scalar text plain :: rest => some (.scalar text plain, rest)
    | .flowSequenceStart :: rest =>
      (takeFlowItems fuel true rest).map fun (items, rest) => (.sequence items, rest)
    | .flowMappingStart :: rest =>
      (takeFlowEntries fuel true rest).map fun (entries, rest) => (.mapping entries, rest)
    | .sequenceStart :: rest =>
      if inBlock then (takeItems fuel rest).map fun (items, rest) => (.sequence items, rest)
      else none
    | .mappingStart :: rest =>
      if inBlock then (takeEntries fuel rest).map fun (entries, rest) => (.mapping entries, rest)
      else none
    | .item :: _ =>
      if inMapping then
        (takeBareItems fuel tokens).map fun (items, rest) => (.sequence items, rest)
      else none
    | _ => none

/-- Takes a value, unless there is none before some tokens. -/
def takeUnless : Nat → Bool → Bool → List Token → List Token → Option (Yaml × List Token)
  | 0, _, _, _, _ => none
  | fuel + 1, inBlock, inMapping, enders, tokens =>
    if comesNext tokens enders then some (nothing, tokens)
    else takeNode fuel inBlock inMapping tokens

/-- Takes the items of a block sequence, and its end. -/
def takeItems : Nat → List Token → Option (List Yaml × List Token)
  | 0, _ => none
  | fuel + 1, tokens =>
    match tokens with
    | .item :: rest => do
      let (item, rest) ← takeUnless fuel true false [.item, .blockEnd] rest
      let (items, rest) ← takeItems fuel rest
      some (item :: items, rest)
    | .blockEnd :: rest => some ([], rest)
    | _ => none

/-- Takes the items of a sequence without indentation, which has no end of its
own. -/
def takeBareItems : Nat → List Token → Option (List Yaml × List Token)
  | 0, _ => none
  | fuel + 1, tokens =>
    match tokens with
    | .item :: rest => do
      let (item, rest) ← takeUnless fuel true false (.item :: blockEnders) rest
      let (items, rest) ← takeBareItems fuel rest
      some (item :: items, rest)
    | _ => some ([], tokens)

/-- Takes the entries of a block mapping, and its end. -/
def takeEntries : Nat → List Token → Option (List (Yaml × Yaml) × List Token)
  | 0, _ => none
  | fuel + 1, tokens =>
    match tokens with
    | .key :: rest => do
      let (key, rest) ← takeUnless fuel true true blockEnders rest
      let (value, rest) ← takeValue fuel true blockEnders rest
      let (entries, rest) ← takeEntries fuel rest
      some ((key, value) :: entries, rest)
    | .blockEnd :: rest => some ([], rest)
    | _ => none

/-- Takes the value behind a key. A key without a colon has none. -/
def takeValue : Nat → Bool → List Token → List Token → Option (Yaml × List Token)
  | 0, _, _, _ => none
  | fuel + 1, inBlock, enders, tokens =>
    match tokens with
    | .value :: rest => takeUnless fuel inBlock inBlock enders rest
    | _ => some (nothing, tokens)

/-- Takes the items of a flow sequence, and its end. -/
def takeFlowItems : Nat → Bool → List Token → Option (List Yaml × List Token)
  | 0, _, _ => none
  | fuel + 1, isFirst, tokens =>
    match tokens with
    | .flowSequenceEnd :: rest => some ([], rest)
    | .comma :: rest => if isFirst then none else takeFlowItem fuel rest
    | _ => if isFirst then takeFlowItem fuel tokens else none

/-- Takes an item of a flow sequence and those behind it. An item with a key is
a mapping of one entry. Behind the last comma there may be no item. -/
def takeFlowItem : Nat → List Token → Option (List Yaml × List Token)
  | 0, _ => none
  | fuel + 1, tokens =>
    match tokens with
    | .flowSequenceEnd :: rest => some ([], rest)
    | .key :: rest => do
      let (entry, rest) ← takeFlowPair fuel rest
      let (items, rest) ← takeFlowItems fuel false rest
      some (.mapping [entry] :: items, rest)
    | _ => do
      let (item, rest) ← takeNode fuel false false tokens
      let (items, rest) ← takeFlowItems fuel false rest
      some (item :: items, rest)

/-- Takes the only entry of a mapping in a flow sequence. The token in place of a
missing key is lost. -/
def takeFlowPair : Nat → List Token → Option ((Yaml × Yaml) × List Token)
  | 0, _ => none
  | fuel + 1, tokens => do
    let enders : List Token := [.comma, .flowSequenceEnd]
    let (key, rest) ←
      if comesNext tokens (.value :: enders) then some (nothing, tokens.drop 1)
      else takeNode fuel false false tokens
    let (value, rest) ← takeValue fuel false enders rest
    some ((key, value), rest)

/-- Takes the entries of a flow mapping, and its end. -/
def takeFlowEntries : Nat → Bool → List Token → Option (List (Yaml × Yaml) × List Token)
  | 0, _, _ => none
  | fuel + 1, isFirst, tokens =>
    match tokens with
    | .flowMappingEnd :: rest => some ([], rest)
    | .comma :: rest => if isFirst then none else takeFlowEntry fuel rest
    | _ => if isFirst then takeFlowEntry fuel tokens else none

/-- Takes an entry of a flow mapping and those behind it. A value without a key
before it is a key without a value. -/
def takeFlowEntry : Nat → List Token → Option (List (Yaml × Yaml) × List Token)
  | 0, _ => none
  | fuel + 1, tokens =>
    let enders : List Token := [.comma, .flowMappingEnd]
    match tokens with
    | .flowMappingEnd :: rest => some ([], rest)
    | .key :: rest => do
      let (key, rest) ← takeUnless fuel false false (.value :: enders) rest
      let (value, rest) ← takeValue fuel false enders rest
      let (entries, rest) ← takeFlowEntries fuel false rest
      some ((key, value) :: entries, rest)
    | _ => do
      let (key, rest) ← takeNode fuel false false tokens
      let (entries, rest) ← takeFlowEntries fuel false rest
      some ((key, nothing) :: entries, rest)

end

/-- Takes the value of a document, with its marker. -/
def takeDocument (fuel : Nat) (tokens : List Token) : Option (Yaml × List Token) :=
  match tokens with
  | [] => some (nothing, [])
  | .documentStart :: rest =>
    if rest.isEmpty then some (nothing, rest)
    else takeUnless fuel true false [.documentStart, .documentEnd] rest
  | _ => takeNode fuel true false tokens

/-- Puts the value of the only document together. Behind it there may be markers
of its end. -/
def ofTokens? (tokens : List Token) : Option Yaml := do
  let (value, rest) ← takeDocument (4 * tokens.length + 4) tokens
  if rest.all (· = .documentEnd) then some value else none

end Yaml

end DecaySearch.Text
