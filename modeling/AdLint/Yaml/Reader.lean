import AdLint.Document
import AdLint.Yaml.Token

/-!
# Reading YAML

A text holds at most one document. An alias stands for the value that its anchor was given to
before.

## Main definitions

* `Yaml.parse?`: the document that a text writes
-/

namespace AdLint.Yaml

/-- The tokens that are left, and the values that anchors were given to, the last one first. -/
structure Reading where
  tokens : List Token
  anchors : List (String × Document) := []

/-- A value that was left out. -/
def leftOut : Document := .plain ""

namespace Reading

/-- Whether the next token is one of some tokens, or there is none. -/
def stopsAt (r : Reading) (stops : List Token) : Bool :=
  match r.tokens with
  | [] => true
  | token :: _ => stops.contains token

/-- The reading behind an anchor and a tag, the name of the anchor, and whether there was either. -/
def properties (r : Reading) : Reading × Option String × Bool :=
  match r.tokens with
  | .anchor name :: .tag :: tokens => ({ r with tokens }, some name, true)
  | .tag :: .anchor name :: tokens => ({ r with tokens }, some name, true)
  | .anchor name :: tokens => ({ r with tokens }, some name, true)
  | .tag :: tokens => ({ r with tokens }, none, true)
  | _ => (r, none, false)

/-- The reading with a value for an anchor. -/
def bind (r : Reading) (anchor : Option String) (value : Document) : Reading :=
  { r with anchors := (anchor.toList.map fun name => (name, value)) ++ r.anchors }

mutual

/-- The value at a reading, and the reading after it. Outside flow collections it may be a
collection of lines, as the value of a key even a sequence that is not indented. The bound is the
number of steps. -/
def node? : Nat → Bool → Bool → Reading → Option (Document × Reading)
  | 0, _, _, _ => none
  | n + 1, inLines, asValue, r =>
    match r.tokens with
    | .reference name :: tokens =>
      (r.anchors.find? fun anchor => anchor.1 == name).map fun anchor =>
        (anchor.2, { r with tokens })
    | _ =>
      let (r, anchor, given) := r.properties
      let content : Option (Document × Reading) :=
        match r.tokens with
        | .scalar text isPlain :: tokens =>
          some (if isPlain then .plain text else .text text, { r with tokens })
        | .flowSequenceStart :: tokens => flowItems? n true [] { r with tokens }
        | .flowMappingStart :: tokens => flowEntries? n true [] { r with tokens }
        | .blockEntry :: _ =>
          if asValue then looseItems? n [] r else if given then some (leftOut, r) else none
        | .sequenceStart :: tokens =>
          if inLines then items? n [] { r with tokens }
          else if given then some (leftOut, r) else none
        | .mappingStart :: tokens =>
          if inLines then entries? n [] { r with tokens }
          else if given then some (leftOut, r) else none
        | _ => if given then some (leftOut, r) else none
      content.map fun (value, r) => (value, r.bind anchor value)

/-- A value that may be left out before some tokens. -/
def optional? : Nat → Bool → Bool → List Token → Reading → Option (Document × Reading)
  | 0, _, _, _, _ => none
  | n + 1, inLines, asValue, stops, r =>
    if r.stopsAt stops then some (leftOut, r) else node? n inLines asValue r

/-- The value after a colon, which may be left out with its colon. -/
def valueOf? : Nat → Bool → List Token → Reading → Option (Document × Reading)
  | 0, _, _, _ => none
  | n + 1, inLines, stops, r =>
    match r.tokens with
    | .value :: tokens => optional? n inLines inLines stops { r with tokens }
    | _ => some (leftOut, r)

/-- The items of a sequence of lines. -/
def items? : Nat → List Document → Reading → Option (Document × Reading)
  | 0, _, _ => none
  | n + 1, taken, r =>
    match r.tokens with
    | .blockEntry :: tokens => do
      let (item, r) ← optional? n true false [.blockEntry, .blockEnd] { r with tokens }
      items? n (taken ++ [item]) r
    | .blockEnd :: tokens => some (.list taken, { r with tokens })
    | _ => none

/-- The items of a sequence that is not indented. -/
def looseItems? : Nat → List Document → Reading → Option (Document × Reading)
  | 0, _, _ => none
  | n + 1, taken, r =>
    match r.tokens with
    | .blockEntry :: tokens => do
      let (item, r) ← optional? n true false [.blockEntry, .key, .value,
          .blockEnd] { r with tokens }
      looseItems? n (taken ++ [item]) r
    | _ => some (.list taken, r)

/-- The entries of a mapping of lines. A key has to be a scalar. -/
def entries? : Nat → List (String × Document) → Reading → Option (Document × Reading)
  | 0, _, _ => none
  | n + 1, taken, r =>
    let stops := [.key, .value, .blockEnd]
    match r.tokens with
    | .key :: tokens => do
      let (key, r) ← optional? n true true stops { r with tokens }
      let (value, r) ← valueOf? n true stops r
      entries? n (taken ++ [(← key.asText?, value)]) r
    | .blockEnd :: tokens => some (.table taken, { r with tokens })
    | _ => none

/-- The items of a flow sequence. An item may be a mapping of one key. -/
def flowItems? : Nat → Bool → List Document → Reading → Option (Document × Reading)
  | 0, _, _, _ => none
  | n + 1, isFirst, taken, r =>
    match r.tokens with
    | .flowSequenceEnd :: tokens => some (.list taken, { r with tokens })
    | token :: tokens =>
      let stops := [.flowEntry, .flowSequenceEnd]
      if !isFirst && token != .flowEntry then none
      else
        let r := if isFirst then r else { r with tokens }
        match r.tokens with
        | .flowSequenceEnd :: tokens => some (.list taken, { r with tokens })
        | .key :: tokens => do
          let (key, r) ← optional? n false false (.value :: stops) { r with tokens }
          let (value, r) ← valueOf? n false stops r
          flowItems? n false (taken ++ [.table [(← key.asText?, value)]]) r
        | _ => do
          let (item, r) ← node? n false false r
          flowItems? n false (taken ++ [item]) r
    | [] => none

/-- The entries of a flow mapping. -/
def flowEntries? : Nat → Bool → List (String × Document) → Reading → Option (Document × Reading)
  | 0, _, _, _ => none
  | n + 1, isFirst, taken, r =>
    match r.tokens with
    | .flowMappingEnd :: tokens => some (.table taken, { r with tokens })
    | token :: tokens =>
      let stops := [.flowEntry, .flowMappingEnd]
      if !isFirst && token != .flowEntry then none
      else
        let r := if isFirst then r else { r with tokens }
        match r.tokens with
        | .flowMappingEnd :: tokens => some (.table taken, { r with tokens })
        | .key :: tokens => do
          let (key, r) ← optional? n false false (.value :: stops) { r with tokens }
          let (value, r) ← valueOf? n false stops r
          flowEntries? n false (taken ++ [(← key.asText?, value)]) r
        | _ => do
          let (key, r) ← node? n false false r
          flowEntries? n false (taken ++ [(← key.asText?, leftOut)]) r
    | [] => none

end

end Reading

/-- The content of a document, and the tokens after it. A mark between documents leaves it out. -/
def content? (tokens : List Token) : Option (Document × List Token) :=
  let r : Reading := { tokens }
  if r.stopsAt [.directive, .documentStart, .documentEnd] then some (leftOut, tokens)
  else (r.node? (4 * tokens.length + 4) true false).map fun (value, r) => (value, r.tokens)

/-- The document that a text writes. A text without one leaves it out. -/
def parse? (text : String) : Option Document := do
  let tokens ← tokens? text
  if tokens.isEmpty then some leftOut
  else
    let (document, rest) ←
      match tokens.dropWhile (· == .directive) with
      | .documentStart :: body => content? body
      | _ =>
        if tokens.head? == some .directive || tokens.head? == some .documentEnd then none
        else content? tokens
    if (rest.dropWhile (· == .documentEnd)).isEmpty then some document else none

end AdLint.Yaml
