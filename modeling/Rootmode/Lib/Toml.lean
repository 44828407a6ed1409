import Rootmode.Lib.Prefixes

namespace Lib.Toml

open Text

/-- A dotted key, its quotes taken off. -/
abbrev Path := List Text

/-- A statement of a document. -/
inductive Item
  | keyval (path : Path)
  | table (path : Path)
  | arrayTable (path : Path)
  deriving DecidableEq

def Item.isKeyval : Item → Bool
  | .keyval _ => true
  | _ => false

/-- The statements before the first header. -/
def topLevel (items : List Item) : List Item := items.takeWhile Item.isKeyval

section Chars

def isBlank (c : Char) : Bool := c == ' ' || c == '\t'

/-- What stands nowhere in a document, a line's end apart. -/
def isControl (c : Char) : Bool := (c.toNat < 32 && c != '\t') || c.toNat == 127

def isBareKeyChar (c : Char) : Bool := c.isAlphanum || c == '_' || c == '-'

/-- What a number, a date or a boolean is spelled with. -/
def isWordChar (c : Char) : Bool := c.isAlphanum || c == '_' || c == '-' || c == '+' || c == '.' || c == ':'

def isHexDigit (c : Char) : Bool := c.isDigit || ('a' ≤ c && c ≤ 'f') || ('A' ≤ c && c ≤ 'F')

def hexDigit (c : Char) : ℕ :=
  if c.isDigit then c.toNat - 48 else if 'a' ≤ c then c.toNat - 87 else c.toNat - 55

end Chars

section Words

/-- Digits, an underscore standing between two of them. -/
def digits (p : Char → Bool) (t : Text) : Bool :=
  (t.splitOn '_').all fun group => !group.isEmpty && group.all p

def decimal (t : Text) : Bool := digits Char.isDigit t && (t.length == 1 || t.head? != some '0')

def unsigned : Text → Text
  | '+' :: t => t
  | '-' :: t => t
  | t => t

/-- An integer or a float, its sign taken off. -/
def isNumber (t : Text) : Bool :=
  let mantissa := t.takeWhile fun c => c != 'e' && c != 'E'
  let exponent := t.drop mantissa.length
  let whole := mantissa.takeWhile (· != '.')
  let fraction := mantissa.drop whole.length
  decimal whole && (fraction.isEmpty || digits Char.isDigit fraction.tail) &&
    (exponent.isEmpty || digits Char.isDigit (unsigned exponent.tail))

def isRadix : Text → Bool
  | '0' :: 'x' :: t => digits isHexDigit t
  | '0' :: 'o' :: t => digits (fun c => '0' ≤ c && c ≤ '7') t
  | '0' :: 'b' :: t => digits (fun c => c == '0' || c == '1') t
  | _ => false

/-- A number of two digits that is at most `most`. -/
def twoDigits (most : ℕ) (a b : Char) : Bool :=
  a.isDigit && b.isDigit && 10 * (a.toNat - 48) + (b.toNat - 48) ≤ most

def daysOf (year month : ℕ) : ℕ :=
  if month = 2 then if year % 4 = 0 ∧ (year % 100 ≠ 0 ∨ year % 400 = 0) then 29 else 28
  else if month = 4 ∨ month = 6 ∨ month = 9 ∨ month = 11 then 30 else 31

def number (t : Text) : ℕ := t.foldl (fun n c => 10 * n + (c.toNat - 48)) 0

def isDate : Text → Bool
  | [y₁, y₂, y₃, y₄, '-', m₁, m₂, '-', d₁, d₂] =>
    [y₁, y₂, y₃, y₄].all Char.isDigit && twoDigits 12 m₁ m₂ && 0 < number [m₁, m₂] &&
      twoDigits (daysOf (number [y₁, y₂, y₃, y₄]) (number [m₁, m₂])) d₁ d₂ && 0 < number [d₁, d₂]
  | _ => false

def isOffset : Text → Bool
  | [] => true
  | [c] => c == 'Z' || c == 'z'
  | [s, h₁, h₂, ':', m₁, m₂] => (s == '+' || s == '-') && twoDigits 23 h₁ h₂ && twoDigits 59 m₁ m₂
  | _ => false

/-- A time of the day, with an offset only where `offset` allows one. -/
def isTime (offset : Bool) : Text → Bool
  | h₁ :: h₂ :: ':' :: m₁ :: m₂ :: ':' :: s₁ :: s₂ :: t =>
    let fraction := match t with
      | '.' :: t => t.takeWhile Char.isDigit
      | _ => []
    let rest := match t with
      | '.' :: t => t.dropWhile Char.isDigit
      | t => t
    twoDigits 23 h₁ h₂ && twoDigits 59 m₁ m₂ && twoDigits 60 s₁ s₂ &&
      (t.head? != some '.' || !fraction.isEmpty) && if offset then isOffset rest else rest.isEmpty
  | _ => false

def isMoment (t : Text) : Bool :=
  isTime false t || isDate t ||
    (isDate (t.take 10) && ((t.drop 10).head?.any fun c => c == 'T' || c == 't' || c == ' ') &&
      isTime true (t.drop 11))

def isScalar (t : Text) : Bool :=
  t == ofString "true" || t == ofString "false" ||
    unsigned t == ofString "inf" || unsigned t == ofString "nan" ||
    isNumber (unsigned t) || isRadix t || isMoment t

end Words

/-- What of a string in double quotes has gone by: its characters, and what an escape still owes. -/
inductive Str
  | plain (t : Text)
  | escape (t : Text)
  | unicode (t : Text) (left n : ℕ)

/-- Behind the backslash of an escape. -/
def escaped (t : Text) : Char → Option Str
  | 'b' => some (.plain (t ++ [Char.ofNat 8]))
  | 't' => some (.plain (t ++ ['\t']))
  | 'n' => some (.plain (t ++ ['\n']))
  | 'f' => some (.plain (t ++ [Char.ofNat 12]))
  | 'r' => some (.plain (t ++ ['\r']))
  | '"' => some (.plain (t ++ ['"']))
  | '\\' => some (.plain (t ++ ['\\']))
  | 'u' => some (.unicode t 3 0)
  | 'U' => some (.unicode t 7 0)
  | _ => none

def Str.step : Str → Char → Option (Text ⊕ Str)
  | .plain t, c =>
    if c = '"' then some (.inl t)
    else if c = '\\' then some (.inr (.escape t))
    else if isControl c then none
    else some (.inr (.plain (t ++ [c])))
  | .escape t, c => (escaped t c).map .inr
  | .unicode t left n, c =>
    if isHexDigit c then
      let value := 16 * n + hexDigit c
      match left with
      | left + 1 => some (.inr (.unicode t left value))
      | 0 => if value.isValidChar then some (.inr (.plain (t ++ [Char.ofNat value]))) else none
    else none

/-- What holds the value that is being read: an array, or an inline table with the keys it has. -/
inductive Frame
  | array
  | entries (keys : List Path)

/-- The key that a value is given to, and what it stands in. -/
structure Slot where
  path : Path
  frames : List Frame

/-- What a key is read for. -/
inductive Holder
  | keyval
  | header (array : Bool)
  | entry (slot : Slot) (keys : List Path)

/-- What of a document's line, or of the statement it is in, has gone by. -/
inductive Mode
  | start
  | comment (before : Mode)
  | bracket
  | dot (holder : Holder) (parts : Path)
  | bare (holder : Holder) (parts : Path) (part : Text)
  | basicKey (holder : Holder) (parts : Path) (str : Str)
  | literalKey (holder : Holder) (parts : Path) (part : Text)
  | keyEnd (holder : Holder) (parts : Path)
  | close (parts : Path)
  | done (item : Item)
  | value (slot : Slot)
  | word (slot : Slot) (t : Text)
  | date (slot : Slot) (t : Text)
  | quotes (slot : Slot) (literal two : Bool)
  | basic (slot : Slot) (str : Str)
  | literal (slot : Slot)
  | basics (slot : Slot) (seen : ℕ)
  | escapes (slot : Slot) (str : Str)
  | gap (slot : Slot)
  | literals (slot : Slot) (seen : ℕ)
  | element (slot : Slot)
  | next (slot : Slot)
  | brace (slot : Slot)
  | field (slot : Slot)

namespace Slot

def push (s : Slot) (f : Frame) : Slot := ⟨s.path, f :: s.frames⟩

def pop (s : Slot) : Slot := ⟨s.path, s.frames.tail⟩

/-- Behind a value. -/
def finish (s : Slot) : Mode :=
  match s.frames with
  | [] => .done (.keyval s.path)
  | .array :: _ => .next s
  | .entries _ :: _ => .field s

end Slot

/-- Keys of an inline table that cannot stand in it together. -/
def clash (p q : Path) : Bool := p.isPrefixOf q || q.isPrefixOf p

section Steps

/-- Behind a value, or behind the brackets of a header. -/
def endStep : Mode → Char → Option Mode
  | .done item, c => if isBlank c then some (.done item) else if c = '#' then some (.comment (.done item)) else none
  | .next s, c =>
    if isBlank c then some (.next s)
    else if c = '#' then some (.comment (.next s))
    else if c = ',' then some (.element s)
    else if c = ']' then some s.pop.finish
    else none
  | .field s, c =>
    if isBlank c then some (.field s)
    else if c = ',' then
      match s.frames with
      | .entries keys :: _ => some (.dot (.entry s.pop keys) [])
      | _ => none
    else if c = '}' then some s.pop.finish
    else none
  | _, _ => none

/-- Before a part of a key. -/
def dotStep (h : Holder) (parts : Path) (c : Char) : Option Mode :=
  if isBlank c then some (.dot h parts)
  else if c = '"' then some (.basicKey h parts (.plain []))
  else if c = '\'' then some (.literalKey h parts [])
  else if isBareKeyChar c then some (.bare h parts [c])
  else none

/-- Behind a part of a key. -/
def keyEndStep (h : Holder) (parts : Path) (c : Char) : Option Mode :=
  if isBlank c then some (.keyEnd h parts)
  else if c = '.' then some (.dot h parts)
  else match h with
    | .keyval => if c = '=' then some (.value ⟨parts, []⟩) else none
    | .header array =>
      if c = ']' then if array then some (.close parts) else some (.done (.table parts)) else none
    | .entry s keys =>
      if c = '=' ∧ keys.all (fun key => !clash key parts) then some (.value (s.push (.entries (parts :: keys)))) else none

/-- Before a value. -/
def valueStep (s : Slot) (c : Char) : Option Mode :=
  if isBlank c then some (.value s)
  else if c = '"' then some (.quotes s false false)
  else if c = '\'' then some (.quotes s true false)
  else if c = '[' then some (.element (s.push .array))
  else if c = '{' then some (.brace (s.push (.entries [])))
  else if c.isDigit || c == '+' || c == '-' || c == 't' || c == 'f' || c == 'i' || c == 'n' then some (.word s [c])
  else none

def basicStep (s : Slot) (str : Str) (c : Char) : Option Mode :=
  match str.step c with
  | some (.inl _) => some s.finish
  | some (.inr str) => some (.basic s str)
  | none => none

def literalStep (s : Slot) (c : Char) : Option Mode :=
  if c = '\'' then some s.finish else if isControl c then none else some (.literal s)

/-- Behind the backslash of an escape in a string of several lines. -/
def escapesStep (s : Slot) (str : Str) (c : Char) : Option Mode :=
  match str.step c with
  | some (.inr (.plain _)) => some (.basics s 0)
  | some (.inr str) => some (.escapes s str)
  | _ => none

def step : Mode → Char → Option Mode
  | .start, c =>
    if isBlank c then some .start
    else if c = '#' then some (.comment .start)
    else if c = '[' then some .bracket
    else dotStep .keyval [] c
  | .comment m, c => if isControl c then none else some (.comment m)
  | .bracket, c => if c = '[' then some (.dot (.header true) []) else dotStep (.header false) [] c
  | .dot h parts, c => dotStep h parts c
  | .bare h parts part, c =>
    if isBareKeyChar c then some (.bare h parts (part ++ [c])) else keyEndStep h (parts ++ [part]) c
  | .basicKey h parts str, c =>
    match str.step c with
    | some (.inl part) => some (.keyEnd h (parts ++ [part]))
    | some (.inr str) => some (.basicKey h parts str)
    | none => none
  | .literalKey h parts part, c =>
    if c = '\'' then some (.keyEnd h (parts ++ [part]))
    else if isControl c then none
    else some (.literalKey h parts (part ++ [c]))
  | .keyEnd h parts, c => keyEndStep h parts c
  | .close parts, c => if c = ']' then some (.done (.arrayTable parts)) else none
  | .done item, c => endStep (.done item) c
  | .value s, c => valueStep s c
  | .word s t, c =>
    if isWordChar c then some (.word s (t ++ [c]))
    else if c = ' ' ∧ isDate t then some (.date s t)
    else if isScalar t then endStep s.finish c
    else none
  | .date s t, c => if c.isDigit then some (.word s (t ++ [' ', c])) else endStep s.finish c
  | .quotes s true two, c =>
    if c = '\'' then if two then some (.literals s 0) else some (.quotes s true true)
    else if two then endStep s.finish c
    else literalStep s c
  | .quotes s false two, c =>
    if c = '"' then if two then some (.basics s 0) else some (.quotes s false true)
    else if two then endStep s.finish c
    else basicStep s (.plain []) c
  | .basic s str, c => basicStep s str c
  | .literal s, c => literalStep s c
  | .basics s seen, c =>
    -- up to two quotes may stand right before the three that end the string
    if c = '"' then if seen < 5 then some (.basics s (seen + 1)) else none
    else if 3 ≤ seen then endStep s.finish c
    else if c = '\\' then some (.escapes s (.escape []))
    else if isControl c then none
    else some (.basics s 0)
  | .escapes s str, c =>
    match str with
    | .escape _ => if isBlank c then some (.gap s) else escapesStep s str c
    | _ => escapesStep s str c
  | .gap s, c => if isBlank c then some (.gap s) else none
  | .literals s seen, c =>
    if c = '\'' then if seen < 5 then some (.literals s (seen + 1)) else none
    else if 3 ≤ seen then endStep s.finish c
    else if isControl c then none
    else some (.literals s 0)
  | .element s, c =>
    if isBlank c then some (.element s)
    else if c = '#' then some (.comment (.element s))
    else if c = ']' then some s.pop.finish
    else valueStep s c
  | .next s, c => endStep (.next s) c
  | .brace s, c =>
    if isBlank c then some (.brace s)
    else if c = '}' then some s.pop.finish
    else dotStep (.entry s.pop []) [] c
  | .field s, c => endStep (.field s) c

/-- What a line's end leaves behind a value or behind a header. -/
def settle : Mode → Option (Mode × List Item)
  | .done item => some (.start, [item])
  | .next s => some (.next s, [])
  | _ => none

/-- What a line's end leaves, and the statement it ends. -/
def endLine : Mode → Option (Mode × List Item)
  | .start => some (.start, [])
  | .comment m => endLine m
  | .done item => settle (.done item)
  | .word s t => if isScalar t then settle s.finish else none
  | .date s _ => settle s.finish
  | .quotes s _ true => settle s.finish
  | .basics s seen => if 3 ≤ seen then settle s.finish else some (.basics s 0, [])
  | .literals s seen => if 3 ≤ seen then settle s.finish else some (.literals s 0, [])
  | .escapes s (.escape _) => some (.basics s 0, [])
  | .gap s => some (.basics s 0, [])
  | .element s => some (.element s, [])
  | .next s => settle (.next s)
  | _ => none

def readLine (m : Mode) (line : Text) : Option (Mode × List Item) := (line.foldlM step m).bind endLine

def readLines (m : Mode) : List Text → Option (Mode × List Item)
  | [] => some (m, [])
  | line :: ls => do
    let (m, items) ← readLine m line
    let (m, rest) ← readLines m ls
    pure (m, items ++ rest)

end Steps

end Lib.Toml
