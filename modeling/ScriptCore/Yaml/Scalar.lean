import ScriptCore.Number.Numeral
import ScriptCore.Text.Quoted
import ScriptCore.Text.Search
import ScriptCore.Yaml.Spot

namespace ScriptCore.Yaml

namespace Tag

def lead : String := "tag:yaml.org,2002:"

def null : String := lead ++ "null"

def bool : String := lead ++ "bool"

def int : String := lead ++ "int"

def float : String := lead ++ "float"

def timestamp : String := lead ++ "timestamp"

def str : String := lead ++ "str"

def seq : String := lead ++ "seq"

def map : String := lead ++ "map"

def set : String := lead ++ "set"

def omap : String := lead ++ "omap"

def pairs : String := lead ++ "pairs"

def binary : String := lead ++ "binary"

def merge : String := lead ++ "merge"

def value : String := lead ++ "value"

end Tag

namespace Word

def truths : List (String × Bool) :=
  [("yes", true), ("no", false), ("true", true), ("false", false), ("on", true), ("off", false)]

def isCasedAs (word s : String) : Bool := s = word || s = word.toUpper || s = word.capitalize

variable (s : String)

def isTruth : Bool := truths.any fun e => isCasedAs e.1 s

def isNothing : Bool := s = "" || s = "~" || isCasedAs "null" s

def isDigitOr (extra : Char → Bool) (c : Char) : Bool := c.isDigit || extra c

def isUnderscore (c : Char) : Bool := c = '_'

def startsNumber : List Char → Bool
  | c :: _ => c.isDigit
  | [] => false

def isExponent : List Char → Bool
  | [] => true
  | e :: sign :: ds => (e = 'e' || e = 'E') && (sign = '-' || sign = '+') && !ds.isEmpty && ds.all Char.isDigit
  | _ => false

def afterSixties : Nat → List Char → Option (List Char)
  | 0, _ => none
  | fuel + 1, ':' :: rest =>
    let ds := rest.takeWhile Char.isDigit
    let fits := match ds with
      | [_] => true
      | [a, _] => a.toNat < '6'.toNat
      | _ => false
    let left := rest.drop ds.length
    if !fits then none
    else
      match left with
      | ':' :: _ => afterSixties fuel left
      | _ => some left
  | _, _ => none

def sixties (cs : List Char) : Option (List Char) := afterSixties (cs.length + 1) cs

def unsigned : List Char → List Char
  | '-' :: cs | '+' :: cs => cs
  | cs => cs

def digitsAndUnderscores (cs : List Char) : List Char × List Char :=
  let p := isDigitOr isUnderscore
  (cs.takeWhile p, cs.dropWhile p)

def isFloat : Bool :=
  let cs := s.toList
  let body := unsigned cs
  let (whole, rest) := digitsAndUnderscores body
  let pointed :=
    startsNumber whole &&
      match rest with
      | '.' :: more => isExponent (digitsAndUnderscores more).2
      | _ => false
  let fraction :=
    match cs with
    | '.' :: more => startsNumber more && isExponent (digitsAndUnderscores more).2
    | _ => false
  let timed :=
    startsNumber whole &&
      match sixties rest with
      | some ('.' :: more) => (digitsAndUnderscores more).2.isEmpty
      | _ => false
  let infinite := [".inf", ".Inf", ".INF"].contains (String.ofList body)
  pointed || fraction || timed || infinite || [".nan", ".NaN", ".NAN"].contains s

def isInt : Bool :=
  match unsigned s.toList with
  | '0' :: 'b' :: ds => !ds.isEmpty && ds.all fun c => c = '0' || c = '1' || c = '_'
  | '0' :: 'x' :: ds => !ds.isEmpty && ds.all fun c => c.isDigit || ('a' ≤ c && c ≤ 'f') || ('A' ≤ c && c ≤ 'F') || c = '_'
  | ['0'] => true
  | '0' :: ds => ds.all fun c => ('0' ≤ c && c ≤ '7') || c = '_'
  | cs =>
    let (whole, rest) := digitsAndUnderscores cs
    startsNumber whole && (rest.isEmpty || sixties rest = some [])

structure Moment where
  year : Nat
  month : Nat
  day : Nat
  clock : Option (Nat × Nat × Nat × List Char)
  /-- The zone: none, the common one, or an offset with its sign. -/
  zone : Option (Option (Bool × Nat × Nat))

def value (ds : List Char) : Nat := Decimal.digitsValue ds

def digits? (low high : Nat) (cs : List Char) : Option (Nat × List Char) :=
  let ds := (cs.take high).takeWhile Char.isDigit
  if ds.length < low then none else some (value ds, cs.drop ds.length)

def after? (c : Char) : List Char → Option (List Char)
  | d :: cs => if d = c then some cs else none
  | [] => none

def zone? (cs : List Char) : Option (Option (Option (Bool × Nat × Nat))) :=
  match cs.dropWhile fun c => c = ' ' || c = '\t' with
  | [] => if cs.isEmpty then some none else none
  | ['Z'] => some (some none)
  | sign :: rest =>
    if sign = '-' || sign = '+' then
      match digits? 1 2 rest with
      | some (h, []) => some (some (some (sign = '-', h, 0)))
      | some (h, ':' :: more) =>
        match digits? 2 2 more with
        | some (m, []) => some (some (some (sign = '-', h, m)))
        | _ => none
      | _ => none
    else none

def moment? : Option Moment := do
  let (year, cs) ← digits? 4 4 s.toList
  let cs ← after? '-' cs
  let (month, cs) ← digits? 1 2 cs
  let cs ← after? '-' cs
  let (day, cs) ← digits? 1 2 cs
  match cs with
  | [] => some ⟨year, month, day, none, none⟩
  | c :: rest => do
    let blank := fun (c : Char) => c = ' ' || c = '\t'
    let cs ← if c = 'T' || c = 't' then some rest else if blank c then some (rest.dropWhile blank) else none
    let (hour, cs) ← digits? 1 2 cs
    let cs ← after? ':' cs
    let (minute, cs) ← digits? 2 2 cs
    let cs ← after? ':' cs
    let (second, cs) ← digits? 2 2 cs
    let (fraction, cs) := match cs with
      | '.' :: more => (more.takeWhile Char.isDigit, more.dropWhile Char.isDigit)
      | cs => ([], cs)
    let zone ← zone? cs
    some ⟨year, month, day, some (hour, minute, second, fraction), zone⟩

def isTimestamp : Bool :=
  match moment? s with
  | some m => m.clock.isSome || s.length = 10
  | none => false

end Word

def Tag.ofPlain (s : String) : String :=
  if Word.isTruth s then Tag.bool
  else if Word.isFloat s then Tag.float
  else if Word.isInt s then Tag.int
  else if s = "<<" then Tag.merge
  else if Word.isNothing s then Tag.null
  else if Word.isTimestamp s then Tag.timestamp
  else if s = "=" then Tag.value
  else Tag.str

namespace Word

def valueError {α : Type} (message : String) : Except Fault α := .error (.raised ⟨.valueError, message⟩)

def outOfRange {α : Type} : Except Fault α := .error (.raised ⟨.indexError, "string index out of range"⟩)

def withoutUnderscores (s : String) : List Char := s.toList.filter (· ≠ '_')

def signOf (cs : List Char) : Bool × List Char := (cs.head? = some '-', unsigned cs)

def intIn (base : Nat) (cs : List Char) : Except Fault Int :=
  let s := String.ofList cs
  match Numeral.integer? base s with
  | some n => .ok n
  | none => valueError ("invalid literal for int() with base " ++ toString base ++ ": " ++ Quoted.quote s)

def inSixties {α : Type} (add : α → α → α) (scale : α → α) (zero : α) (parts : List α) : α :=
  parts.foldl (fun n p => add (scale n) p) zero

def colonParts (cs : List Char) : List (List Char) := Search.splitAt [':'] cs.length cs

def int (s : String) : Except Fault Int := do
  let (negative, cs) := signOf (withoutUnderscores s)
  let n ←
    match cs with
    | [] => outOfRange
    | ['0'] => pure 0
    | '0' :: 'b' :: ds => intIn 2 ds
    | '0' :: 'x' :: ds => intIn 16 ds
    | '0' :: _ => intIn 8 cs
    | cs =>
      if cs.contains ':' then do
        let parts ← (colonParts cs).mapM (intIn 10)
        pure (inSixties (· + ·) (· * 60) 0 parts)
      else intIn 10 cs
  pure (if negative then -n else n)

def real (cs : List Char) : Except Fault Float :=
  let s := String.ofList cs
  match Numeral.real? s with
  | some x => .ok x
  | none => valueError ("could not convert string to float: " ++ Quoted.quote s)

def sumSixties (parts : List Float) : Float :=
  (parts.reverse.foldl (fun (acc : Float × Float) p => (acc.1 + p * acc.2, acc.2 * 60.0)) (0.0, 1.0)).1

def float (s : String) : Except Fault Float := do
  let (negative, cs) := signOf ((withoutUnderscores s).map Char.toLower)
  let x ←
    if s.toList.all (· = '_') then outOfRange
    else if cs = ".inf".toList then pure (Binary.infinity false)
    else if cs = ".nan".toList then pure Binary.nan
    else if cs.contains ':' then do
      let parts ← (colonParts cs).mapM real
      pure (sumSixties parts)
    else real cs
  pure (if negative && cs ≠ ".nan".toList then -x else x)

def isLeap (year : Nat) : Bool := year % 4 = 0 && (year % 100 ≠ 0 || year % 400 = 0)

def daysIn (year month : Nat) : Nat :=
  if month = 2 then (if isLeap year then 29 else 28)
  else if [4, 6, 9, 11].contains month then 30 else 31

def millionths (ds : List Char) : Nat := value ((ds ++ List.replicate 6 '0').take 6)

def listText (parts : List String) : String := ", ".intercalate parts

def offsetText (negative : Bool) (hours minutes : Nat) : String :=
  let total : Int := (if negative then -1 else 1) * ((hours * 3600 + minutes * 60 : Nat) : Int)
  let days := total.fdiv 86400
  let seconds := total.fmod 86400
  let parts :=
    (if days = 0 then [] else ["days=" ++ toString days]) ++
      (if seconds = 0 then [] else ["seconds=" ++ toString seconds])
  "datetime.timedelta(" ++ (if parts.isEmpty then "0" else listText parts) ++ ")"

def zoneText : Option (Bool × Nat × Nat) → Except Fault String
  | none => .ok "datetime.timezone.utc"
  | some (negative, hours, minutes) =>
    let offset := offsetText negative hours minutes
    if 24 * 60 ≤ hours * 60 + minutes then
      valueError ("offset must be a timedelta strictly between -timedelta(hours=24) and timedelta(hours=24), not " ++
        offset ++ ".")
    else if hours = 0 ∧ minutes = 0 then .ok "datetime.timezone.utc"
    else .ok ("datetime.timezone(" ++ offset ++ ")")

def momentText (m : Moment) : Except Fault (Bool × String) := do
  let day := [m.year, m.month, m.day].map fun (n : Nat) => toString n
  let checkDay : Except Fault Unit :=
    if m.year = 0 then valueError "year 0 is out of range"
    else if m.month = 0 || 12 < m.month then valueError "month must be in 1..12"
    else if m.day = 0 || daysIn m.year m.month < m.day then valueError "day is out of range for month"
    else .ok ()
  match m.clock with
  | none => do
    checkDay
    pure (false, "datetime.date(" ++ listText day ++ ")")
  | some (hour, minute, second, fraction) => do
    let zone ← match m.zone with
      | none => pure []
      | some z => do
        let text ← zoneText z
        pure ["tzinfo=" ++ text]
    checkDay
    if 23 < hour then valueError "hour must be in 0..23"
    else if 59 < minute then valueError "minute must be in 0..59"
    else if 59 < second then valueError "second must be in 0..59"
    else
      let micro := millionths fraction
      let fine := if micro = 0 then (if second = 0 then [] else [second]) else [second, micro]
      let clock := ([hour, minute] ++ fine).map fun (n : Nat) => toString n
      pure (true, "datetime.datetime(" ++ listText (day ++ clock ++ zone) ++ ")")

def sextet? (c : Char) : Option Nat :=
  if 'A' ≤ c && c ≤ 'Z' then some (c.toNat - 'A'.toNat)
  else if 'a' ≤ c && c ≤ 'z' then some (c.toNat - 'a'.toNat + 26)
  else if c.isDigit then some (c.toNat - '0'.toNat + 52)
  else if c = '+' then some 62
  else if c = '/' then some 63
  else none

/-- Decodes groups of four signs; what is no sign is passed over. `held` are the bits of the open
group, `count` its signs, and `pads` the padding that was met in it. -/
def decodeBytes : List Char → Nat → Nat → Nat → Option (List Nat)
  | [], _, count, _ => if count = 0 then some [] else none
  | c :: cs, held, count, pads =>
    if c = '=' then
      if 2 ≤ count && 4 ≤ count + pads + 1 then some []
      else decodeBytes cs held count (if 2 ≤ count then pads + 1 else pads)
    else
      match sextet? c with
      | none => decodeBytes cs held count pads
      | some d =>
        match count with
        | 0 => decodeBytes cs d 1 0
        | 1 => (decodeBytes cs (d % 16) 2 0).map ((held * 4 + d / 16) :: ·)
        | 2 => (decodeBytes cs (d % 4) 3 0).map ((held * 16 + d / 4) :: ·)
        | _ => (decodeBytes cs 0 0 0).map ((held * 64 + d) :: ·)

end Word

end ScriptCore.Yaml
