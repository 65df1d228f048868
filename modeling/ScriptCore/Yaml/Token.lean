import ScriptCore.Yaml.Spot

namespace ScriptCore.Yaml

inductive Token where
  | streamEnd
  | versionDirective (major : Nat)
  | tagDirective (handle lead : String)
  | directive
  | documentStart
  | documentEnd
  | blockSequenceStart
  | blockMappingStart
  | blockEnd
  | flowSequenceStart
  | flowSequenceEnd
  | flowMappingStart
  | flowMappingEnd
  | blockEntry
  | flowEntry
  | key
  | value
  | alias_ (name : String)
  | anchor (name : String)
  | tag (handle : Option String) (suffix : String)
  | scalar (text : String) (plain : Bool)
  deriving DecidableEq

structure PossibleKey where
  token : Nat
  required : Bool
  index : Nat
  line : Nat
  column : Nat

structure Scanner where
  spot : Spot
  flow : Nat := 0
  tokens : Array Token := #[]
  indent : Int := -1
  indents : List Int := []
  allowKey : Bool := true
  keys : List (Nat × PossibleKey) := []

abbrev Scan (α : Type) := Except Fault α

namespace Scanner

inductive Chomping where
  | keep | strip | clip

variable (s : Scanner)

def emit (t : Token) : Scanner := { s with tokens := s.tokens.push t }

def inFlow : Bool := s.flow ≠ 0

def dropStaleKeys : Scan Scanner :=
  let stale := fun (k : PossibleKey) => k.line ≠ s.spot.line || s.spot.index - k.index > 1024
  if s.keys.any fun e => stale e.2 && e.2.required then .error .malformed
  else .ok { s with keys := s.keys.filter fun e => !stale e.2 }

def dropKey : Scan Scanner :=
  match s.keys.find? fun e => e.1 = s.flow with
  | none => .ok s
  | some (_, k) =>
    if k.required then .error .malformed else .ok { s with keys := s.keys.filter fun e => e.1 ≠ s.flow }

def noteKey : Scan Scanner :=
  if s.allowKey then do
    let s ← s.dropKey
    let required := !s.inFlow && s.indent = s.spot.column
    let k : PossibleKey := ⟨s.tokens.size, required, s.spot.index, s.spot.line, s.spot.column⟩
    pure { s with keys := (s.flow, k) :: s.keys }
  else .ok s

def unwind (column : Int) : List Int → Scanner → Scanner
  | outer, s =>
    if s.inFlow || s.indent ≤ column then s
    else
      match outer with
      | [] => { s with indent := -1 }
      | i :: rest => unwind column rest { s.emit .blockEnd with indent := i, indents := rest }

def unwindTo (column : Int) : Scanner := unwind column s.indents s

def deepen (column : Int) : Bool × Scanner :=
  if s.indent < column then (true, { s with indents := s.indent :: s.indents, indent := column }) else (false, s)

def skipToToken : Nat → Scanner → Scanner
  | 0, s => s
  | fuel + 1, s =>
    let t := (s.spot.skipWhile (· = ' ')).skipComment
    match t.lineBreak with
    | ([], _) => { s with spot := t }
    | (_, u) => skipToToken fuel { s with spot := u, allowKey := s.allowKey || !s.inFlow }

def isNameChar (c : Char) : Bool := c.isAlphanum || c = '-' || c = '_'

def isUriChar (c : Char) : Bool :=
  c.isAlphanum || "-;/?:@&=+$,_.!~*'()[]%".toList.contains c

def hexValue? (c : Char) : Option Nat :=
  if c.isDigit then some (c.toNat - '0'.toNat)
  else if 'a' ≤ c && c ≤ 'f' then some (c.toNat - 'a'.toNat + 10)
  else if 'A' ≤ c && c ≤ 'F' then some (c.toNat - 'A'.toNat + 10)
  else none

def hexNumber (n : Nat) (s : Spot) : Scan (Nat × Spot) :=
  let digits := s.rest.take n
  if digits.length < n then .error .malformed
  else
    match digits.foldlM (fun m c => (hexValue? c).map (m * 16 + ·)) 0 with
    | some m => .ok (m, s.forward n)
    | none => .error .malformed

def escapedBytes : Nat → Spot → Scan (List UInt8 × Spot)
  | 0, s => .ok ([], s)
  | fuel + 1, s =>
    if s.peek = '%' then do
      let (n, t) ← hexNumber 2 s.next
      let (more, u) ← escapedBytes fuel t
      pure (n.toUInt8 :: more, u)
    else .ok ([], s)

def uriFrom : Nat → List Char → Spot → Scan (List Char × Spot)
  | 0, acc, s => .ok (acc.reverse, s)
  | fuel + 1, acc, s =>
    if s.peek = '%' then do
      let (bytes, t) ← escapedBytes fuel s
      match String.fromUTF8? (ByteArray.mk bytes.toArray) with
      | some text => uriFrom fuel (text.toList.reverse ++ acc) t
      | none => .error .malformed
    else if isUriChar s.peek then uriFrom fuel (s.peek :: acc) s.next
    else .ok (acc.reverse, s)

def uri (s : Spot) : Scan (String × Spot) := do
  let (cs, t) ← uriFrom (s.rest.length + 1) [] s
  if t.index = s.index then .error .malformed else pure (String.ofList cs, t)

def tagHandle (s : Spot) : Scan (String × Spot) :=
  if s.peek ≠ '!' then .error .malformed
  else if s.ahead 1 = ' ' then .ok ("!", s.next)
  else
    let (name, t) := s.next.takeWhile isNameChar
    if t.peek = '!' then .ok ("!" ++ String.ofList name ++ "!", t.next) else .error .malformed

def endsDirective (c : Char) : Bool := c = ' ' || endsLine c

def number (s : Spot) : Scan (Nat × Spot) :=
  let (ds, t) := s.takeWhile Char.isDigit
  if ds.isEmpty then .error .malformed
  else .ok (ds.foldl (fun n c => n * 10 + (c.toNat - '0'.toNat)) 0, t)

def scanDirective (start : Spot) : Scan (Token × Spot) := do
  let (name, s) := start.next.takeWhile isNameChar
  if name.isEmpty || !endsDirective s.peek then .error .malformed
  else do
    let (t, s) ←
      if name = "YAML".toList then do
        let (major, s) ← number (s.skipWhile (· = ' '))
        if s.peek ≠ '.' then .error .malformed
        else do
          let (_, s) ← number s.next
          if endsDirective s.peek then pure (Token.versionDirective major, s) else .error .malformed
      else if name = "TAG".toList then do
        let (handle, s) ← tagHandle (s.skipWhile (· = ' '))
        if s.peek ≠ ' ' then .error .malformed
        else do
          let (lead, s) ← uri (s.skipWhile (· = ' '))
          if endsDirective s.peek then pure (Token.tagDirective handle lead, s) else .error .malformed
      else pure (Token.directive, s.skipWhile (fun c => !endsLine c))
    let s ← s.restOfLine
    pure (t, s)

def anchorName (start : Spot) : Scan (String × Spot) :=
  let (name, s) := start.next.takeWhile isNameChar
  if name.isEmpty || !(endsWord s.peek || "?:,]\x7d%@`".toList.contains s.peek) then .error .malformed
  else .ok (String.ofList name, s)

def hasHandle (s : Spot) : Bool := (s.next.rest.takeWhile fun c => !endsDirective c).contains '!'

def scanTag (s : Spot) : Scan (Token × Spot) := do
  let (t, u) ←
    if s.ahead 1 = '<' then do
      let (suffix, u) ← uri (s.forward 2)
      if u.peek = '>' then pure (Token.tag none suffix, u.next) else .error .malformed
    else if endsWord (s.ahead 1) then pure (Token.tag none "!", s.next)
    else if hasHandle s then do
      let (handle, u) ← tagHandle s
      let (suffix, u) ← uri u
      pure (Token.tag (some handle) suffix, u)
    else do
      let (suffix, u) ← uri s.next
      pure (Token.tag (some "!") suffix, u)
  if endsDirective u.peek then pure (t, u) else .error .malformed

def chompingOf? (c : Char) : Option Chomping :=
  if c = '+' then some .keep else if c = '-' then some .strip else none

def incrementOf? (c : Char) : Option Nat := if c.isDigit then some (c.toNat - '0'.toNat) else none

def blockHeader (s : Spot) : Scan (Chomping × Option Nat × Spot) := do
  let (chomping, increment, t) :=
    match chompingOf? s.peek with
    | some c =>
      match incrementOf? s.next.peek with
      | some n => (c, some n, s.forward 2)
      | none => (c, none, s.next)
    | none =>
      match incrementOf? s.peek with
      | some n =>
        match chompingOf? s.next.peek with
        | some c => (c, some n, s.forward 2)
        | none => (.clip, some n, s.next)
      | none => (.clip, none, s)
  if increment = some 0 || !endsDirective t.peek then .error .malformed
  else do
    let u ← t.restOfLine
    pure (chomping, increment, u)

def leadingBreaks : Nat → List Char → Nat → Spot → List Char × Nat × Spot
  | 0, acc, deepest, s => (acc, deepest, s)
  | fuel + 1, acc, deepest, s =>
    if s.peek = ' ' then leadingBreaks fuel acc (max deepest s.next.column) s.next
    else
      match s.lineBreak with
      | ([], _) => (acc, deepest, s)
      | (b, t) => leadingBreaks fuel (acc ++ b) deepest t

def innerBreaks (indent : Nat) : Nat → List Char → Spot → List Char × Spot
  | 0, acc, s => (acc, s)
  | fuel + 1, acc, s =>
    let t := s.skipTo indent
    match t.lineBreak with
    | ([], _) => (acc, t)
    | (b, u) => innerBreaks indent fuel (acc ++ b) u

def isSpaceOrTab (c : Char) : Bool := c = ' ' || c = '\t'

/-- The lines of a block scalar. The text so far ends in `lineEnd` and the empty lines `breaks`,
which are not in it yet. A folded text has a blank in the place of a single line end between lines
that start with no blank. -/
def blockLines (folded : Bool) (indent : Nat) : Nat → List Char → List Char → List Char → Spot →
    List Char × List Char × List Char × Spot
  | 0, text, lineEnd, breaks, s => (text, lineEnd, breaks, s)
  | fuel + 1, text, lineEnd, breaks, s =>
    if s.column = indent && s.peek ≠ nul then
      let flush := !isSpaceOrTab s.peek
      let (line, t) := s.takeWhile fun c => !endsLine c
      let (lineEnd', t) := t.lineBreak
      let text := text ++ breaks ++ line
      let (breaks', u) := innerBreaks indent (t.rest.length + 1) [] t
      if u.column = indent && u.peek ≠ nul then
        let joint :=
          if folded && lineEnd' = ['\n'] && flush && !isSpaceOrTab u.peek then
            (if breaks'.isEmpty then [' '] else [])
          else lineEnd'
        blockLines folded indent fuel (text ++ joint) lineEnd' breaks' u
      else (text, lineEnd', breaks', u)
    else (text, lineEnd, breaks, s)

def scanBlockScalar (outer : Int) (folded : Bool) (start : Spot) : Scan (Token × Spot) := do
  let (chomping, increment, s) ← blockHeader start.next
  let least := (max 1 (outer + 1)).toNat
  let fuel := s.rest.length + 1
  let (indent, breaks, s) :=
    match increment with
    | none =>
      let (breaks, deepest, t) := leadingBreaks fuel [] 0 s
      (max least deepest, breaks, t)
    | some n =>
      let (breaks, t) := innerBreaks (least + n - 1) fuel [] s
      (least + n - 1, breaks, t)
  let (text, lineEnd, breaks, s) := blockLines folded indent fuel [] [] breaks s
  let tail :=
    match chomping with
    | .keep => lineEnd ++ breaks
    | .clip => lineEnd
    | .strip => []
  pure (.scalar (String.ofList (text ++ tail)) false, s)

def escapes : List (Char × Nat) :=
  [('0', 0), ('a', 7), ('b', 8), ('t', 9), ('\t', 9), ('n', 10), ('v', 11), ('f', 12), ('r', 13), ('e', 27),
    (' ', 32), ('"', 34), ('\\', 92), ('/', 47), ('N', 0x85), ('_', 0xA0), ('L', 0x2028), ('P', 0x2029)]

def escapeWidth? (c : Char) : Option Nat :=
  if c = 'x' then some 2 else if c = 'u' then some 4 else if c = 'U' then some 8 else none

def quotedBreaks : Nat → List Char → Spot → Scan (List Char × Spot)
  | 0, acc, s => .ok (acc, s)
  | fuel + 1, acc, s =>
    if s.atSeparator then .error .malformed
    else
      let t := s.skipWhile isSpaceOrTab
      match t.lineBreak with
      | ([], _) => .ok (acc, t)
      | (b, u) => quotedBreaks fuel (acc ++ b) u

/-- The text up to the closing quote; `acc` holds what came before, in reverse. A line end within is
a blank, and empty lines after it stay. -/
def quoted (double : Bool) : Nat → List Char → Spot → Scan (List Char × Spot)
  | 0, _, _ => .error .malformed
  | fuel + 1, acc, s =>
    let c := s.peek
    if c = nul then .error .malformed
    else if !double && c = '\'' then
      if s.ahead 1 = '\'' then quoted double fuel ('\'' :: acc) (s.forward 2) else .ok (acc.reverse, s.next)
    else if double && c = '"' then .ok (acc.reverse, s.next)
    else if double && c = '\\' then
      let e := s.ahead 1
      match escapes.find? fun x => x.1 = e with
      | some (_, n) => quoted double fuel (Char.ofNat n :: acc) (s.forward 2)
      | none =>
        match escapeWidth? e with
        | some n =>
          match hexNumber n (s.forward 2) with
          | .error f => .error f
          | .ok (m, t) =>
            if 0x110000 ≤ m then .error (.raised ⟨.valueError, "chr() arg not in range(0x110000)"⟩)
            else quoted double fuel (Char.ofNat m :: acc) t
        | none =>
          match s.next.lineBreak with
          | ([], _) => .error .malformed
          | (_, t) =>
            match quotedBreaks fuel [] t with
            | .error f => .error f
            | .ok (b, u) => quoted double fuel (b.reverse ++ acc) u
    else if isSpaceOrTab c || isBreak c then
      let (blanks, t) := s.takeWhile isSpaceOrTab
      match t.lineBreak with
      | ([], _) => quoted double fuel (blanks.reverse ++ acc) t
      | (lineEnd, u) =>
        match quotedBreaks fuel [] u with
        | .error f => .error f
        | .ok (breaks, v) =>
          let joint := if lineEnd ≠ ['\n'] then lineEnd else if breaks.isEmpty then [' '] else []
          quoted double fuel (breaks.reverse ++ joint.reverse ++ acc) v
    else quoted double fuel (c :: acc) s.next

def scanQuoted (double : Bool) (s : Spot) : Scan (Token × Spot) := do
  let (text, t) ← quoted double (s.rest.length + 1) [] s.next
  pure (.scalar (String.ofList text) false, t)

def endsPlain (flow : Bool) : List Char → Bool
  | [] => true
  | c :: cs =>
    endsWord c ||
      (c = ':' && (endsWord (cs.headD nul) || (flow && ",[]\x7b\x7d".toList.contains (cs.headD nul)))) ||
      (flow && ",?[]\x7b\x7d".toList.contains c)

def plainWord (flow : Bool) : List Char → List Char
  | [] => []
  | c :: cs => if endsPlain flow (c :: cs) then [] else c :: plainWord flow cs

def plainBreaks : Nat → List Char → Spot → Option (List Char) × Spot
  | 0, acc, s => (some acc, s)
  | fuel + 1, acc, s =>
    if s.peek = ' ' then plainBreaks fuel acc s.next
    else
      match s.lineBreak with
      | ([], _) => (some acc, s)
      | (b, t) => if t.atSeparator then (none, t) else plainBreaks fuel (acc ++ b) t

/-- What joins two words of a plain scalar: blanks, or a line end; nothing if no word can follow.
The flag tells whether a line end was passed. -/
def plainJoint (s : Spot) : Option (List Char) × Bool × Spot :=
  let (blanks, t) := s.takeWhile (· = ' ')
  match t.lineBreak with
  | ([], _) => (if blanks.isEmpty then none else some blanks, false, t)
  | (lineEnd, u) =>
    if u.atSeparator then (none, true, u)
    else
      match plainBreaks (u.rest.length + 1) [] u with
      | (none, v) => (none, true, v)
      | (some breaks, v) =>
        let joint := if lineEnd ≠ ['\n'] then lineEnd else if breaks.isEmpty then [' '] else []
        (some (joint ++ breaks), true, v)

def plainWords (flow : Bool) (indent : Int) : Nat → List Char → List Char → Bool → Spot → List Char × Bool × Spot
  | 0, text, _, fresh, s => (text, fresh, s)
  | fuel + 1, text, joint, fresh, s =>
    if s.peek = '#' then (text, fresh, s)
    else
      let word := plainWord flow s.rest
      if word.isEmpty then (text, fresh, s)
      else
        let text := text ++ joint ++ word
        match plainJoint (s.forward word.length) with
        | (none, passed, t) => (text, passed, t)
        | (some joint', passed, t) =>
          if t.peek = '#' || (!flow && (t.column : Int) < indent) then (text, passed, t)
          else plainWords flow indent fuel text joint' passed t

def scanPlain : Scanner :=
  let (text, fresh, t) := plainWords s.inFlow (s.indent + 1) (s.spot.rest.length + 1) [] [] false s.spot
  { s with spot := t, allowKey := fresh }.emit (.scalar (String.ofList text) true)

def startsPlain : Bool :=
  let c := s.spot.peek
  !(endsWord c || "-?:,[]\x7b\x7d#&*!|>'\"%@`".toList.contains c) ||
    (!endsWord (s.spot.ahead 1) && (c = '-' || (!s.inFlow && (c = '?' || c = ':'))))

def insertAt (tokens : Array Token) (n : Nat) (new : List Token) : Array Token :=
  tokens.extract 0 n ++ new.toArray ++ tokens.extract n tokens.size

def fetchBlockEntry : Scan Scanner := do
  if !s.inFlow && !s.allowKey then .error .malformed
  else do
    let (opened, s) := if s.inFlow then (false, s) else s.deepen s.spot.column
    let s := if opened then s.emit .blockSequenceStart else s
    let s ← s.dropKey
    pure ({ s with spot := s.spot.next, allowKey := true }.emit .blockEntry)

def fetchKey : Scan Scanner := do
  if !s.inFlow && !s.allowKey then .error .malformed
  else do
    let (opened, s) := if s.inFlow then (false, s) else s.deepen s.spot.column
    let s := if opened then s.emit .blockMappingStart else s
    let s ← s.dropKey
    pure ({ s with spot := s.spot.next, allowKey := !s.inFlow }.emit .key)

def fetchValue : Scan Scanner := do
  let step := fun (s : Scanner) => { s with spot := s.spot.next }.emit .value
  match s.keys.find? fun e => e.1 = s.flow with
  | some (_, k) =>
    let (opened, t) := if s.inFlow then (false, s) else s.deepen k.column
    let marks := if opened then [.blockMappingStart, .key] else [.key]
    pure (step
      { t with tokens := insertAt t.tokens k.token marks, keys := t.keys.filter fun e => e.1 ≠ s.flow, allowKey := false })
  | none =>
    if !s.inFlow && !s.allowKey then .error .malformed
    else do
      let (opened, s) := if s.inFlow then (false, s) else s.deepen s.spot.column
      let s := if opened then s.emit .blockMappingStart else s
      let s ← s.dropKey
      pure (step { s with allowKey := !s.inFlow })

def fetchFlowStart (t : Token) : Scan Scanner := do
  let s ← s.noteKey
  pure ({ s with flow := s.flow + 1, allowKey := true, spot := s.spot.next }.emit t)

def fetchFlowEnd (t : Token) : Scan Scanner := do
  let s ← s.dropKey
  if s.flow = 0 then .error .malformed
  else pure ({ s with flow := s.flow - 1, allowKey := false, spot := s.spot.next }.emit t)

def fetchWith (scan : Spot → Scan (Token × Spot)) : Scan Scanner := do
  let s ← s.noteKey
  let (t, spot) ← scan s.spot
  pure ({ s with spot, allowKey := false }.emit t)

def fetchSeparator (t : Token) : Scan Scanner := do
  let s ← (s.unwindTo (-1)).dropKey
  pure ({ s with allowKey := false, spot := s.spot.forward 3 }.emit t)

def fetchDirective : Scan Scanner := do
  let s ← (s.unwindTo (-1)).dropKey
  let (t, spot) ← scanDirective s.spot
  pure ({ s with allowKey := false, spot }.emit t)

def fetchBlockScalar (folded : Bool) : Scan Scanner := do
  let s ← s.dropKey
  let (t, spot) ← scanBlockScalar s.indent folded s.spot
  pure ({ s with allowKey := true, spot }.emit t)

def fetch : Scan Scanner := do
  let c := s.spot.peek
  let wordEnds := endsWord (s.spot.ahead 1)
  if s.spot.column = 0 && c = '%' then s.fetchDirective
  else if s.spot.column = 0 && s.spot.atSeparator then
    s.fetchSeparator (if c = '-' then .documentStart else .documentEnd)
  else if c = '[' then s.fetchFlowStart .flowSequenceStart
  else if c = '\x7b' then s.fetchFlowStart .flowMappingStart
  else if c = ']' then s.fetchFlowEnd .flowSequenceEnd
  else if c = '\x7d' then s.fetchFlowEnd .flowMappingEnd
  else if c = ',' then do
    let s ← s.dropKey
    pure ({ s with allowKey := true, spot := s.spot.next }.emit .flowEntry)
  else if c = '-' && wordEnds then s.fetchBlockEntry
  else if c = '?' && (s.inFlow || wordEnds) then s.fetchKey
  else if c = ':' && (s.inFlow || wordEnds) then s.fetchValue
  else if c = '*' then s.fetchWith fun p => (anchorName p).map fun r => (.alias_ r.1, r.2)
  else if c = '&' then s.fetchWith fun p => (anchorName p).map fun r => (.anchor r.1, r.2)
  else if c = '!' then s.fetchWith scanTag
  else if c = '|' && !s.inFlow then s.fetchBlockScalar false
  else if c = '>' && !s.inFlow then s.fetchBlockScalar true
  else if c = '\'' then s.fetchWith (scanQuoted false)
  else if c = '"' then s.fetchWith (scanQuoted true)
  else if s.startsPlain then do
    let s ← s.noteKey
    pure s.scanPlain
  else .error .malformed

def run : Nat → Scanner → Scan (Array Token)
  | 0, _ => .error .malformed
  | fuel + 1, s => do
    let s ← (skipToToken (s.spot.rest.length + 1) s).dropStaleKeys
    let s := s.unwindTo s.spot.column
    if s.spot.peek = nul then do
      let s ← (s.unwindTo (-1)).dropKey
      pure (s.emit .streamEnd).tokens
    else do
      let s ← s.fetch
      run fuel s

end Scanner

def Token.scan (source : String) : Except Fault (List Token) :=
  let cs := source.toList
  if cs.all isPrintable then
    let start : Spot := { rest := cs }
    let spot := if start.peek = byteOrderMark then start.next else start
    (Scanner.run (cs.length + 2) { spot }).map Array.toList
  else .error .malformed

end ScriptCore.Yaml
