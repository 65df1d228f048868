import ScriptCore.Yaml.Scalar
import ScriptCore.Yaml.Token

namespace ScriptCore.Yaml

abbrev NodeId := Nat

inductive Content where
  | scalar (text : String)
  | sequence (items : List NodeId)
  | mapping (entries : List (NodeId × NodeId))

structure Node where
  tag : String
  content : Content

instance : Inhabited Node := ⟨⟨Tag.null, .scalar ""⟩⟩

structure Reading where
  tokens : List Token
  nodes : Array Node := #[]
  anchors : List (String × NodeId) := []
  handles : List (String × String) := []

abbrev Read (α : Type) := StateT Reading (Except Fault) α

namespace Reading

def malformed {α : Type} : Read α := fun _ => .error .malformed

def peek : Read Token := fun r => .ok (r.tokens.headD .streamEnd, r)

def skip : Read Unit := modify fun r => { r with tokens := r.tokens.tail }

def take? (t : Token) : Read Bool := do
  if (← peek) = t then skip *> pure true else pure false

def newNode (anchor : Option String) (n : Node) : Read NodeId := fun r =>
  let id := r.nodes.size
  .ok (id, { r with nodes := r.nodes.push n, anchors := (anchor.map fun a => (a, id)).toList ++ r.anchors })

def setContent (id : NodeId) (c : Content) : Read Unit :=
  modify fun r => { r with nodes := r.nodes.modify id fun n => { n with content := c } }

def emptyNode : Read NodeId := newNode none ⟨Tag.ofPlain "", .scalar ""⟩

def properties : Read (Option String × Option (Option String × String)) := do
  match ← peek with
  | .anchor a => do
    skip
    match ← peek with
    | .tag h s => skip *> pure (some a, some (h, s))
    | _ => pure (some a, none)
  | .tag h s => do
    skip
    match ← peek with
    | .anchor a => skip *> pure (some a, some (h, s))
    | _ => pure (none, some (h, s))
  | _ => pure (none, none)

def fullTag : Option (Option String × String) → Read (Option String)
  | none => pure none
  | some (none, suffix) => pure (some suffix)
  | some (some handle, suffix) => do
    match (← get).handles.lookup handle with
    | some lead => pure (some (lead ++ suffix))
    | none => malformed

def tagOr (given : Option String) (other : String) : String :=
  match given with
  | none => other
  | some t => if t = "!" then other else t

mutual

/-- Reads a node; `block` allows collections that are marked by columns, and `flush` a sequence in
the column of its key. -/
def node (fuel : Nat) (block flush : Bool) : Read NodeId :=
  match fuel with
  | 0 => malformed
  | fuel + 1 => do
    match ← peek with
    | .alias_ a => do
      skip
      match (← get).anchors.lookup a with
      | some id => pure id
      | none => malformed
    | _ => do
      let (anchor, given) ← properties
      let tag ← fullTag given
      let taken := (← get).anchors
      if (anchor.map fun a => taken.any fun e => e.1 == a).getD false then malformed
      else
        let sequence := newNode anchor ⟨tagOr tag Tag.seq, .sequence []⟩
        let mapping := newNode anchor ⟨tagOr tag Tag.map, .mapping []⟩
        match ← peek with
        | .scalar text plain => do
          skip
          let other := if plain || tag.isSome then Tag.ofPlain text else Tag.str
          newNode anchor ⟨tagOr tag other, .scalar text⟩
        | .flowSequenceStart => do
          skip
          let id ← sequence
          let items ← flowItems fuel true
          setContent id (.sequence items)
          pure id
        | .flowMappingStart => do
          skip
          let id ← mapping
          let entries ← flowEntries fuel true
          setContent id (.mapping entries)
          pure id
        | .blockEntry =>
          if flush then do
            let id ← sequence
            let items ← flushItems fuel
            setContent id (.sequence items)
            pure id
          else bare fuel anchor tag
        | .blockSequenceStart =>
          if block then do
            skip
            let id ← sequence
            let items ← blockItems fuel
            setContent id (.sequence items)
            pure id
          else bare fuel anchor tag
        | .blockMappingStart =>
          if block then do
            skip
            let id ← mapping
            let entries ← blockEntries fuel
            setContent id (.mapping entries)
            pure id
          else bare fuel anchor tag
        | _ => bare fuel anchor tag

def bare (fuel : Nat) (anchor tag : Option String) : Read NodeId :=
  match fuel with
  | 0 => malformed
  | _ + 1 =>
    if anchor.isNone && tag.isNone then malformed
    else newNode anchor ⟨tagOr tag (Tag.ofPlain ""), .scalar ""⟩

def nodeUnless (fuel : Nat) (block flush : Bool) (stops : List Token) : Read NodeId :=
  match fuel with
  | 0 => malformed
  | fuel + 1 => do
    if stops.contains (← peek) then emptyNode else node fuel block flush

def blockItems (fuel : Nat) : Read (List NodeId) :=
  match fuel with
  | 0 => malformed
  | fuel + 1 => do
    if ← take? .blockEntry then do
      let id ← nodeUnless fuel true false [.blockEntry, .blockEnd]
      let more ← blockItems fuel
      pure (id :: more)
    else if ← take? .blockEnd then pure []
    else malformed

def flushItems (fuel : Nat) : Read (List NodeId) :=
  match fuel with
  | 0 => malformed
  | fuel + 1 => do
    if ← take? .blockEntry then do
      let id ← nodeUnless fuel true false [.blockEntry, .key, .value, .blockEnd]
      let more ← flushItems fuel
      pure (id :: more)
    else pure []

def valueUnless (fuel : Nat) (block flush : Bool) (stops : List Token) : Read NodeId :=
  match fuel with
  | 0 => malformed
  | fuel + 1 => do
    if ← take? .value then nodeUnless fuel block flush stops else emptyNode

def blockEntries (fuel : Nat) : Read (List (NodeId × NodeId)) :=
  match fuel with
  | 0 => malformed
  | fuel + 1 => do
    if ← take? .key then do
      let k ← nodeUnless fuel true true [.key, .value, .blockEnd]
      let v ← valueUnless fuel true true [.key, .value, .blockEnd]
      let more ← blockEntries fuel
      pure ((k, v) :: more)
    else if ← take? .blockEnd then pure []
    else malformed

def flowItems (fuel : Nat) (first : Bool) : Read (List NodeId) :=
  match fuel with
  | 0 => malformed
  | fuel + 1 => do
    if ← take? .flowSequenceEnd then pure []
    else do
      let ready ← if first then pure true else take? .flowEntry
      if !ready then malformed
      else if ← take? .key then do
        let id ← newNode none ⟨Tag.map, .mapping []⟩
        let k ← nodeUnless fuel false false [.value, .flowEntry, .flowSequenceEnd]
        let v ← valueUnless fuel false false [.flowEntry, .flowSequenceEnd]
        setContent id (.mapping [(k, v)])
        let more ← flowItems fuel false
        pure (id :: more)
      else if ← take? .flowSequenceEnd then pure []
      else do
        let id ← node fuel false false
        let more ← flowItems fuel false
        pure (id :: more)

def flowEntries (fuel : Nat) (first : Bool) : Read (List (NodeId × NodeId)) :=
  match fuel with
  | 0 => malformed
  | fuel + 1 => do
    if ← take? .flowMappingEnd then pure []
    else do
      let ready ← if first then pure true else take? .flowEntry
      if !ready then malformed
      else if ← take? .key then do
        let k ← nodeUnless fuel false false [.value, .flowEntry, .flowMappingEnd]
        let v ← valueUnless fuel false false [.flowEntry, .flowMappingEnd]
        let more ← flowEntries fuel false
        pure ((k, v) :: more)
      else if ← take? .flowMappingEnd then pure []
      else do
        let k ← node fuel false false
        let v ← emptyNode
        let more ← flowEntries fuel false
        pure ((k, v) :: more)

end

def standardHandles : List (String × String) := [("!", "!"), ("!!", Tag.lead)]

def directives (fuel : Nat) (versioned : Bool) (handles : List (String × String)) : Read Unit :=
  match fuel with
  | 0 => malformed
  | fuel + 1 => do
    match ← peek with
    | .versionDirective major =>
      if versioned || major ≠ 1 then malformed else skip *> directives fuel true handles
    | .tagDirective handle lead =>
      if handles.any fun e => e.1 == handle then malformed
      else skip *> directives fuel versioned ((handle, lead) :: handles)
    | .directive => skip *> directives fuel versioned handles
    | _ => modify fun r => { r with handles := handles ++ standardHandles }

def documentEnd (fuel : Nat) : Read Unit :=
  match fuel with
  | 0 => malformed
  | fuel + 1 => do
    if ← take? .documentEnd then documentEnd fuel
    else if (← peek) = .streamEnd then pure ()
    else malformed

def startsDocument : Token → Bool
  | .versionDirective _ | .tagDirective .. | .directive | .documentStart => true
  | _ => false

def document (fuel : Nat) : Read (Option NodeId) := do
  let t ← peek
  if t = .streamEnd then pure none
  else do
    let id ←
      if startsDocument t then do
        directives fuel false []
        if ← take? .documentStart then do
          let t ← peek
          if startsDocument t || t = .documentEnd || t = .streamEnd then emptyNode else node fuel true false
        else malformed
      else do
        modify fun r => { r with handles := standardHandles }
        node fuel true false
    documentEnd fuel
    pure (some id)

end Reading

structure Document where
  nodes : Array Node
  root : Option NodeId

def Document.read (source : String) : Except Fault Document := do
  let tokens ← Token.scan source
  let (root, r) ← Reading.document (4 * tokens.length + 8) { tokens }
  pure ⟨r.nodes, root⟩

end ScriptCore.Yaml
