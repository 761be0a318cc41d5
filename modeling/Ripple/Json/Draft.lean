import Ripple.Json.Fault
import Ripple.Json.Basic

/-!
# Drafts

A `Draft` is a JSON text as far as it can be read. It is a tree like a `Json` value
in which faults are part of the tree: where reading stopped, where a string or a
number has no value, and where arrays and objects nest too deeply. So the form of a
text is found once, and whoever takes a value from it (`Json.parse`, a record codec)
walks the tree in reading order and meets the faults where they lie.

A text is either *read* for its value or *skipped*, as the value of a member that
nobody asks for. Skipping overlooks what only a value shows (lone surrogates, numbers
beyond the largest double, deep nesting), and in some places it stops with another
fault; a `Halt` is the pair of faults of a place at which both stop.
-/

namespace Ripple.Json

/-- The faults at a place where reading stops. -/
structure Halt where
  /-- The fault for someone who reads the value. -/
  reading : Fault
  /-- The fault for someone who skips it. -/
  skipping : Fault
deriving DecidableEq, Repr

/-- A place with the same fault either way. -/
def Halt.both (fault : Fault) : Halt := ⟨fault, fault⟩

/-- A place in a string, where an earlier flaw is what a reader meets first. -/
def Halt.inString (flaw : Option Fault) (fault : Fault) : Halt := ⟨flaw.getD fault, fault⟩

/-- A JSON text as far as it can be read. -/
inductive Draft where
  /-- `null` -/
  | null
  /-- `true` or `false` -/
  | bool (value : Bool)
  /-- A number, or why it has no value. -/
  | num (value : Except Fault JsonNumber)
  /-- A string, or why it has no value. -/
  | str (value : Except Fault String)
  /-- An array. It may be too deep to be read, and the text may stop before its end. -/
  | arr (deep : Option Fault) (items : List Draft) (cut : Option Halt)
  /-- An object, likewise. -/
  | obj (deep : Option Fault) (members : List (Except Fault String × Draft)) (cut : Option Halt)
  /-- Nothing that could be read. -/
  | broken (halt : Halt)
deriving Inhabited

/-- How many arrays and objects may lie around a value that is read. -/
def depthLimit : Nat := 127

/-- The blanks of JSON. -/
def isBlank (c : Char) : Bool := c = ' ' || c = '\t' || c = '\n' || c = '\r'

/-- A text without its leading blanks. -/
def skipBlanks (cs : List Char) : List Char := cs.dropWhile isBlank

/-! ## Strings -/

/-- The value of a hexadecimal digit. -/
def hexValue? (c : Char) : Option Nat :=
  if '0' ≤ c ∧ c ≤ '9' then some (c.toNat - 48)
  else if 'a' ≤ c ∧ c ≤ 'f' then some (c.toNat - 87)
  else if 'A' ≤ c ∧ c ≤ 'F' then some (c.toNat - 55)
  else none

/-- The value of four hexadecimal digits. -/
def hexUnit? (a b c d : Char) : Option Nat := do
  return ((← hexValue? a) * 16 + (← hexValue? b)) * 256 + (← hexValue? c) * 16 + (← hexValue? d)

/-- The character that a letter stands for after a backslash. -/
def unescape? (c : Char) : Option Char :=
  if c = '"' then some '"'
  else if c = '\\' then some '\\'
  else if c = '/' then some '/'
  else if c = 'b' then some '\x08'
  else if c = 'f' then some '\x0c'
  else if c = 'n' then some '\n'
  else if c = 'r' then some '\r'
  else if c = 't' then some '\t'
  else none

/-- Whether a unit of 16 bits is the first half of a pair. -/
def isLeadingSurrogate (unit : Nat) : Bool := 0xD800 ≤ unit && unit ≤ 0xDBFF

/-- Whether a unit of 16 bits is the second half of a pair. -/
def isTrailingSurrogate (unit : Nat) : Bool := 0xDC00 ≤ unit && unit ≤ 0xDFFF

/-- The character of a pair of surrogates. -/
def surrogatePair (leading trailing : Nat) : Char :=
  Char.ofNat ((leading - 0xD800) * 0x400 + (trailing - 0xDC00) + 0x10000)

/-- The flaw of a string if something other than an escaped unit follows a leading
    surrogate. -/
def unpaired (flaw : Option Fault) (leading : Option Nat) (rest : List Char) : Option Fault :=
  match flaw, leading with
  | none, some _ => some (.on .unexpectedEscapeEnd rest)
  | flaw, _ => flaw

/-- The rest of a string after its opening quote: its value or its first flaw, and
    what follows the closing quote. `seen` holds the characters so far, the last one
    first; `leading` is a leading surrogate that waits for its partner, in a string
    without a flaw. -/
def stringBody (seen : List Char) (flaw : Option Fault) (leading : Option Nat) :
    List Char → Except Halt (Except Fault String × List Char)
  | [] => .error (.inString flaw (.atEnd .endInString))
  | c :: rest =>
    if c = '"' then
      match unpaired flaw leading (c :: rest) with
      | some fault => .ok (.error fault, rest)
      | none => .ok (.ok (String.ofList seen.reverse), rest)
    else if c = '\\' then
      match rest with
      | [] => .error (.inString flaw (.atEnd .endInString))
      | e :: rest =>
        if e = 'u' then
          match rest with
          | h₁ :: h₂ :: h₃ :: h₄ :: rest =>
            match hexUnit? h₁ h₂ h₃ h₄ with
            | none =>
              .error (.inString flaw
                ⟨.invalidEscape, Text.byteCount (h₁ :: h₂ :: h₃ :: h₄ :: rest) - 4⟩)
            | some unit =>
              if flaw.isSome then stringBody seen flaw none rest
              else match leading with
              | some first =>
                if isTrailingSurrogate unit then
                  stringBody (surrogatePair first unit :: seen) none none rest
                else stringBody seen (some (.before .loneSurrogate rest)) none rest
              | none =>
                if isLeadingSurrogate unit then stringBody seen none (some unit) rest
                else if isTrailingSurrogate unit then
                  stringBody seen (some (.before .loneSurrogate rest)) none rest
                else stringBody (Char.ofNat unit :: seen) none none rest
          | short =>
            .error (.inString flaw
              (if Text.byteCount short < 4 then .atEnd .endInString
               else ⟨.invalidEscape, Text.byteCount short - 4⟩))
        else
          let flaw := unpaired flaw leading (e :: rest)
          match unescape? e with
          | some d => stringBody (d :: seen) flaw none rest
          | none => .error (.inString flaw (.on .invalidEscape (e :: rest)))
    else
      let flaw := unpaired flaw leading (c :: rest)
      if c.toNat < 32 then .error (.inString flaw (.on .controlCharacter (c :: rest)))
      else stringBody (c :: seen) flaw none rest

/-! ## Numbers -/

/-- The value of a decimal digit. -/
def digitValue (c : Char) : Nat := c.toNat - 48

/-- Appends digits to a number as long as it stays below `2 ^ 64`; the second part is
    the number of digits that are left over from the first that does not fit. -/
def gather (number : Nat) : List Char → Nat × Nat
  | [] => (number, 0)
  | c :: rest =>
    let next := number * 10 + digitValue c
    if next < UInt64.size then gather next rest else (number, rest.length + 1)

/-- The exponent that some digits give, or the digits after the one with which it
    exceeds 31 bits. -/
def gatherExponent (number : Nat) : List Char → Except (List Char) Nat
  | [] => .ok number
  | c :: rest =>
    let next := number * 10 + digitValue c
    if next < 2147483648 then gatherExponent next rest else .error rest

/-- An integer without fraction or exponent. Minus zero and what does not fit 64 bits
    is a double. -/
def integerValue (negative : Bool) (digits : Nat) : JsonNumber :=
  if negative then
    if digits == 0 || digits > 9223372036854775808 then .real ⟨true, .ofNat digits⟩
    else .int (-digits)
  else .int digits

/-- The value of a number from its parts: the digits before and after the point, and
    the exponent. `rest` follows the number. At most 64 bits of digits count; digits
    before the point that do not fit still count as places. -/
def numberValue (negative : Bool) (whole : List Char) (fraction : Option (List Char))
    (exponent : Option (Bool × List Char)) (rest : List Char) : Except Fault JsonNumber :=
  let (digits, places) := gather 0 whole
  if fraction.isNone && exponent.isNone && places == 0 then .ok (integerValue negative digits)
  else
    let (digits, power) : Nat × Int := match fraction with
      | none => (digits, places)
      | some fraction =>
        let (digits, unused) := gather digits fraction
        (digits, (places : Int) - (fraction.length - unused))
    let scaled (power : Int) : Except Fault JsonNumber :=
      match Double.ofDecimal? negative digits power with
      | some x => .ok (.real x)
      | none => .error (.before .numberOutOfRange rest)
    match exponent with
    | none => scaled power
    | some (down, ds) =>
      match gatherExponent 0 ds with
      | .ok e => scaled (if down then power - e else power + e)
      | .error unread =>
        if digits != 0 && !down then .error (.before .numberOutOfRange (unread ++ rest))
        else .ok (.real (.zero negative))

/-- The end of the text where a digit should be: a reader waits for a value, someone
    who skips it sees a malformed number. -/
def Halt.noDigit (rest : List Char) : Halt :=
  match rest with
  | [] => ⟨.atEnd .endInValue, .atEnd .invalidNumber⟩
  | rest => .both (.on .invalidNumber rest)

/-- The exponent of a number, if there is one: whether it is negative, its digits and
    what follows. -/
def exponentPart (cs : List Char) : Except Halt (Option (Bool × List Char) × List Char) :=
  match cs with
  | [] => .ok (none, [])
  | c :: rest =>
    if c = 'e' ∨ c = 'E' then
      let (down, rest) : Bool × List Char := match rest with
        | [] => (false, [])
        | s :: after => if s = '-' then (true, after) else if s = '+' then (false, after)
          else (false, s :: after)
      if (rest.takeWhile Char.isDigit).isEmpty then .error (.noDigit rest)
      else .ok (some (down, rest.takeWhile Char.isDigit), rest.dropWhile Char.isDigit)
    else .ok (none, c :: rest)

/-- The fraction of a number, if there is one: its digits and what follows. -/
def fractionPart (cs : List Char) : Except Halt (Option (List Char) × List Char) :=
  match cs with
  | [] => .ok (none, [])
  | c :: rest =>
    if c = '.' then
      if (rest.takeWhile Char.isDigit).isEmpty then .error (.noDigit rest)
      else .ok (some (rest.takeWhile Char.isDigit), rest.dropWhile Char.isDigit)
    else .ok (none, c :: rest)

/-- The digits before the point: a zero alone, or digits that begin with another one. -/
def wholePart (cs : List Char) : Except Halt (List Char × List Char) :=
  match cs.takeWhile Char.isDigit with
  | [] => .error (.noDigit cs)
  | first :: more =>
    if first = '0' ∧ more ≠ [] then .error (.both (.on .invalidNumber (cs.drop 1)))
    else .ok (first :: more, cs.dropWhile Char.isDigit)

/-- A number after its sign, and what follows it. -/
def number (negative : Bool) (cs : List Char) :
    Except Halt (Except Fault JsonNumber × List Char) := do
  let (whole, rest) ← wholePart cs
  let (fraction, rest) ← fractionPart rest
  let (exponent, rest) ← exponentPart rest
  return (numberValue negative whole fraction exponent rest, rest)

/-! ## Words -/

/-- What follows the remaining letters of a word. -/
def word : List Char → List Char → Except Halt (List Char)
  | [], rest => .ok rest
  | _ :: _, [] => .error (.both (.atEnd .endInValue))
  | e :: es, c :: rest =>
    if c = e then word es rest else .error (.both (.on .expectedIdent (c :: rest)))

/-! ## Values -/

/-- A piece of a draft, and the text after it unless reading has stopped. -/
abbrev Piece := Draft × Option (List Char)

/-- The piece of a leaf. -/
def Piece.ofLeaf {α : Type} (draft : α → Draft) : Except Halt (α × List Char) → Piece
  | .ok (value, rest) => (draft value, some rest)
  | .error halt => (.broken halt, none)

/-- The piece of a word, which needs no value. -/
def Piece.ofWord (draft : Draft) : Except Halt (List Char) → Piece
  | .ok rest => (draft, some rest)
  | .error halt => (.broken halt, none)

/-- Some items or members, why there are no more of them although the bracket is not
    closed, and the text after the bracket unless reading has stopped. -/
abbrev Run (α : Type) := List α × Option Halt × Option (List Char)

/-- A key at the beginning of a text, and the text after its colon. -/
def keyAt (cs : List Char) : Except Halt (Except Fault String × Except Halt (List Char)) :=
  match cs with
  | [] => .error (.both (.atEnd .endInObject))
  | q :: body =>
    if q = '"' then do
      let (key, rest) ← stringBody [] none none body
      match skipBlanks rest with
      | [] => return (key, .error (.both (.atEnd .endInObject)))
      | colon :: rest =>
        if colon = ':' then return (key, .ok rest)
        else return (key, .error (.both (.on .expectedColon (colon :: rest))))
    else .error (.both (.on .keyMustBeString (q :: body)))

/-- The mark of a bracket that lies inside `depth` others; `rest` follows it. Only the
    first bracket beyond the limit needs one, as nobody who reads goes past it. -/
def depthMark (depth : Nat) (rest : List Char) : Option Fault :=
  if depth = depthLimit then some (.before .tooDeep rest) else none

mutual

/-- The value at the beginning of a text, inside `depth` arrays and objects. -/
def valueAt : (fuel depth : Nat) → List Char → Piece
  | 0, _, _ => (.broken (.both (.atEnd .endInValue)), none)
  | fuel + 1, depth, cs =>
    match skipBlanks cs with
    | [] => (.broken (.both (.atEnd .endInValue)), none)
    | c :: rest =>
      if c = '[' then
        let (items, cut, after) := itemsAt fuel (depth + 1) true rest
        (.arr (depthMark depth rest) items cut, after)
      else if c = '\x7b' then
        let (members, cut, after) := membersAt fuel (depth + 1) true rest
        (.obj (depthMark depth rest) members cut, after)
      else if c = '"' then Piece.ofLeaf .str (stringBody [] none none rest)
      else if c = '-' then Piece.ofLeaf .num (number true rest)
      else if c.isDigit then Piece.ofLeaf .num (number false (c :: rest))
      else if c = 'n' then Piece.ofWord .null (word ['u', 'l', 'l'] rest)
      else if c = 't' then Piece.ofWord (.bool true) (word ['r', 'u', 'e'] rest)
      else if c = 'f' then Piece.ofWord (.bool false) (word ['a', 'l', 's', 'e'] rest)
      else (.broken (.both (.on .expectedValue (c :: rest))), none)
termination_by structural fuel => fuel

/-- The items of an array after its bracket, or after one of its items. -/
def itemsAt : (fuel depth : Nat) → (first : Bool) → List Char → Run Draft
  | 0, _, _, _ => ([], some (.both (.atEnd .endInList)), none)
  | fuel + 1, depth, first, cs =>
    match skipBlanks cs with
    | [] => ([], some (.both (.atEnd .endInList)), none)
    | c :: rest =>
      if c = ']' then ([], none, some rest)
      else if first then itemAt fuel depth (c :: rest)
      else if c = ',' then
        match skipBlanks rest with
        | [] => ([], some (.both (.atEnd .endInValue)), none)
        | d :: more =>
          if d = ']' then
            ([], some ⟨.on .trailingComma (d :: more), .on .expectedValue (d :: more)⟩, none)
          else itemAt fuel depth (d :: more)
      else ([], some (.both (.on .expectedListEnd (c :: rest))), none)
termination_by structural fuel => fuel

/-- An item and those after it. -/
def itemAt : (fuel depth : Nat) → List Char → Run Draft
  | 0, _, _ => ([], some (.both (.atEnd .endInList)), none)
  | fuel + 1, depth, cs =>
    match valueAt fuel depth cs with
    | (item, none) => ([item], none, none)
    | (item, some rest) =>
      let (items, cut, after) := itemsAt fuel depth false rest
      (item :: items, cut, after)
termination_by structural fuel => fuel

/-- The members of an object after its brace, or after one of its members. -/
def membersAt : (fuel depth : Nat) → (first : Bool) → List Char →
    Run (Except Fault String × Draft)
  | 0, _, _, _ => ([], some (.both (.atEnd .endInObject)), none)
  | fuel + 1, depth, first, cs =>
    match skipBlanks cs with
    | [] => ([], some (.both (.atEnd .endInObject)), none)
    | c :: rest =>
      if c = '\x7d' then ([], none, some rest)
      else if first then memberAt fuel depth (c :: rest)
      else if c = ',' then
        match skipBlanks rest with
        | [] => ([], some ⟨.atEnd .endInValue, .atEnd .endInObject⟩, none)
        | d :: more =>
          if d = '\x7d' then
            ([], some ⟨.on .trailingComma (d :: more), .on .keyMustBeString (d :: more)⟩, none)
          else memberAt fuel depth (d :: more)
      else ([], some (.both (.on .expectedObjectEnd (c :: rest))), none)
termination_by structural fuel => fuel

/-- A member and those after it. A key without a colon is a member whose value is
    broken there. -/
def memberAt : (fuel depth : Nat) → List Char → Run (Except Fault String × Draft)
  | 0, _, _ => ([], some (.both (.atEnd .endInObject)), none)
  | fuel + 1, depth, cs =>
    match keyAt cs with
    | .error halt => ([], some halt, none)
    | .ok (key, .error halt) => ([(key, .broken halt)], none, none)
    | .ok (key, .ok rest) =>
      match valueAt fuel depth rest with
      | (value, none) => ([(key, value)], none, none)
      | (value, some rest) =>
        let (members, cut, after) := membersAt fuel depth false rest
        ((key, value) :: members, cut, after)
termination_by structural fuel => fuel

end

/-- A whole text: its value, and the fault of something after it. -/
structure Document where
  /-- The value. -/
  root : Draft
  /-- What is wrong with the text after the value. -/
  trailing : Option Fault

/-- The draft of a text. Each step of the reading passes a character or goes from a
    bracket to its first item and on to that item's value, so three times the length is
    enough fuel. -/
def Document.ofChars (cs : List Char) : Document :=
  match valueAt (3 * cs.length + 3) 0 cs with
  | (root, none) => ⟨root, none⟩
  | (root, some rest) =>
    match skipBlanks rest with
    | [] => ⟨root, none⟩
    | rest => ⟨root, some (.on .trailingCharacters rest)⟩

/-- The draft of a text. -/
def Document.ofText (text : String) : Document := .ofChars text.toList

end Ripple.Json
