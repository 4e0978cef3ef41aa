import Mathlib.Data.List.Basic

/-!
# Reading JSON texts as `encoding/json` does

`parse` is the scanner and the decoder into generic values: it takes exactly the
valid texts, refuses a nesting deeper than 10000, and replaces ill-formed UTF-8
and unpaired surrogates in strings by U+FFFD. `stringField` is how a struct
field of type `string` is filled from an object: a key fits up to case, a later
member overrides an earlier one, `null` leaves the field, and any other value is
a type error. `numberField` is the same for a `json.Number`, which also takes a
string that is the text of a number.
-/
namespace TokoApi.Lib.Json

inductive Value where
  | null
  | bool (b : Bool)
  | number (text : String)
  | string (s : String)
  | array (elems : List Value)
  | object (members : List (String × Value))

/-! ## Runes -/

def replacementChar : Char := Char.ofNat 0xfffd

def isContinuation (b : UInt8) : Bool := 0x80 ≤ b && b ≤ 0xbf

/-- `utf8.DecodeRune`: the first rune of `b :: bs`, and how many bytes of `bs`
belong to it. -/
def decodeRune (b : UInt8) (bs : List UInt8) : Char × Nat :=
  let low (c : UInt8) : Nat := c.toNat - 0x80
  if b < 0x80 then (Char.ofNat b.toNat, 0)
  else if 0xc2 ≤ b ∧ b ≤ 0xdf then
    match bs with
    | b₁ :: _ =>
      if isContinuation b₁ then (Char.ofNat ((b.toNat - 0xc0) * 64 + low b₁), 1)
      else (replacementChar, 0)
    | _ => (replacementChar, 0)
  else if 0xe0 ≤ b ∧ b ≤ 0xef then
    match bs with
    | b₁ :: b₂ :: _ =>
      -- no overlong form, and no surrogate
      if (if b = 0xe0 then 0xa0 else 0x80) ≤ b₁ ∧ b₁ ≤ (if b = 0xed then 0x9f else 0xbf) ∧
          isContinuation b₂ then
        (Char.ofNat ((b.toNat - 0xe0) * 4096 + low b₁ * 64 + low b₂), 2)
      else (replacementChar, 0)
    | _ => (replacementChar, 0)
  else if 0xf0 ≤ b ∧ b ≤ 0xf4 then
    match bs with
    | b₁ :: b₂ :: b₃ :: _ =>
      if (if b = 0xf0 then 0x90 else 0x80) ≤ b₁ ∧ b₁ ≤ (if b = 0xf4 then 0x8f else 0xbf) ∧
          isContinuation b₂ ∧ isContinuation b₃ then
        (Char.ofNat ((b.toNat - 0xf0) * 262144 + low b₁ * 4096 + low b₂ * 64 + low b₃), 3)
      else (replacementChar, 0)
    | _ => (replacementChar, 0)
  else (replacementChar, 0)

/-- The runes of a text after its first `skip` bytes. -/
def runesFrom : Nat → List UInt8 → List Char
  | _, [] => []
  | skip + 1, _ :: bs => runesFrom skip bs
  | 0, b :: bs => (decodeRune b bs).1 :: runesFrom (decodeRune b bs).2 bs

def runes (bs : List UInt8) : List Char := runesFrom 0 bs

/-! ## Literals -/

def skipSpace (cs : List Char) : List Char :=
  cs.dropWhile fun c => c = ' ' || c = '\t' || c = '\n' || c = '\r'

/-- A rune of a string literal, or the 16-bit unit of a `\u` escape. -/
inductive Piece where
  | rune (c : Char)
  | unit (n : Nat)

def hexDigit (c : Char) : Option Nat :=
  if '0' ≤ c ∧ c ≤ '9' then some (c.toNat - 48)
  else if 'a' ≤ c ∧ c ≤ 'f' then some (c.toNat - 87)
  else if 'A' ≤ c ∧ c ≤ 'F' then some (c.toNat - 55)
  else none

def hex4 (a b c d : Char) : Option Nat := do
  return (((← hexDigit a) * 16 + (← hexDigit b)) * 16 + (← hexDigit c)) * 16 + (← hexDigit d)

def escaped (c : Char) : Option Char :=
  if c = '"' ∨ c = '\\' ∨ c = '/' then some c
  else if c = 'b' then some (Char.ofNat 8)
  else if c = 'f' then some (Char.ofNat 12)
  else if c = 'n' then some '\n'
  else if c = 'r' then some '\r'
  else if c = 't' then some '\t'
  else none

/-- The pieces of a string literal up to its closing quote, and the rest. -/
def pieces : List Char → Option (List Piece × List Char)
  | [] => none
  | c :: cs =>
    if c = '"' then some ([], cs)
    else if c = '\\' then
      match cs with
      | 'u' :: h₁ :: h₂ :: h₃ :: h₄ :: cs => do
        let n ← hex4 h₁ h₂ h₃ h₄
        let (ps, rest) ← pieces cs
        return (.unit n :: ps, rest)
      | e :: cs => do
        let r ← escaped e
        let (ps, rest) ← pieces cs
        return (.rune r :: ps, rest)
      | [] => none
    else if c.toNat < 0x20 then none
    else do
      let (ps, rest) ← pieces cs
      return (.rune c :: ps, rest)

def isHigh (n : Nat) : Bool := 0xd800 ≤ n && n < 0xdc00

def isLow (n : Nat) : Bool := 0xdc00 ≤ n && n < 0xe000

def ofUnit (n : Nat) : Char := if isHigh n || isLow n then replacementChar else Char.ofNat n

def joinPieces : List Piece → List Char
  | [] => []
  | .rune c :: ps => c :: joinPieces ps
  | .unit n :: .unit m :: ps =>
    if isHigh n ∧ isLow m then
      Char.ofNat ((n - 0xd800) * 0x400 + (m - 0xdc00) + 0x10000) :: joinPieces ps
    else ofUnit n :: joinPieces (.unit m :: ps)
  | .unit n :: ps => ofUnit n :: joinPieces ps

def stringLit (cs : List Char) : Option (String × List Char) := do
  let (ps, rest) ← pieces cs
  return (String.ofList (joinPieces ps), rest)

def digits (cs : List Char) : List Char × List Char := cs.span fun c => '0' ≤ c && c ≤ '9'

def digits1 (cs : List Char) : Option (List Char × List Char) :=
  match digits cs with
  | ([], _) => none
  | p => some p

def fraction : List Char → Option (List Char × List Char)
  | '.' :: cs => do
    let (ds, rest) ← digits1 cs
    return ('.' :: ds, rest)
  | cs => some ([], cs)

def exponent : List Char → Option (List Char × List Char)
  | [] => some ([], [])
  | e :: cs =>
    if e = 'e' ∨ e = 'E' then do
      let (sign, cs) := match cs with
        | s :: cs' => if s = '+' ∨ s = '-' then ([s], cs') else ([], cs)
        | [] => ([], [])
      let (ds, rest) ← digits1 cs
      return (e :: sign ++ ds, rest)
    else some ([], e :: cs)

def numberLit (cs : List Char) : Option (String × List Char) := do
  let (sign, cs) := match cs with
    | '-' :: cs' => (['-'], cs')
    | _ => ([], cs)
  let (int, cs) ← match cs with
    | '0' :: cs' => some (['0'], cs')
    | _ => digits1 cs
  let (frac, cs) ← fraction cs
  let (exp, rest) ← exponent cs
  return (String.ofList (sign ++ int ++ frac ++ exp), rest)

def after : List Char → List Char → Option (List Char)
  | [], cs => some cs
  | k :: ks, c :: cs => if k = c then after ks cs else none
  | _ :: _, [] => none

/-! ## Values -/

mutual

/-- One value at the head of the text. `fuel` bounds the calls, `depth` the
arrays and objects that may still be opened. -/
def value : Nat → Nat → List Char → Option (Value × List Char)
  | 0, _, _ => none
  | fuel + 1, depth, cs =>
    match skipSpace cs with
    | [] => none
    | c :: rest =>
      if c = '"' then do
        let (s, rest) ← stringLit rest
        return (.string s, rest)
      else if c = '[' then
        match depth with
        | 0 => none
        | depth + 1 => do
          let (es, rest) ← elements fuel depth true rest
          return (.array es, rest)
      else if c = '\x7b' then
        match depth with
        | 0 => none
        | depth + 1 => do
          let (ms, rest) ← members fuel depth true rest
          return (.object ms, rest)
      else if c = 'n' then return (.null, ← after "ull".toList rest)
      else if c = 't' then return (.bool true, ← after "rue".toList rest)
      else if c = 'f' then return (.bool false, ← after "alse".toList rest)
      else do
        let (n, rest) ← numberLit (c :: rest)
        return (.number n, rest)

/-- The elements up to the closing bracket; only before the first one may it
stand at once. -/
def elements : Nat → Nat → Bool → List Char → Option (List Value × List Char)
  | 0, _, _, _ => none
  | fuel + 1, depth, first, cs =>
    match first, skipSpace cs with
    | true, ']' :: rest => some ([], rest)
    | _, cs => do
      let (v, rest) ← value fuel depth cs
      match skipSpace rest with
      | ']' :: rest => return ([v], rest)
      | ',' :: rest => do
        let (vs, rest) ← elements fuel depth false rest
        return (v :: vs, rest)
      | _ => none

def members : Nat → Nat → Bool → List Char → Option (List (String × Value) × List Char)
  | 0, _, _, _ => none
  | fuel + 1, depth, first, cs =>
    match first, skipSpace cs with
    | true, '\x7d' :: rest => some ([], rest)
    | _, '"' :: rest => do
      let (key, rest) ← stringLit rest
      match skipSpace rest with
      | ':' :: rest => do
        let (v, rest) ← value fuel depth rest
        match skipSpace rest with
        | '\x7d' :: rest => return ([(key, v)], rest)
        | ',' :: rest => do
          let (ms, rest) ← members fuel depth false rest
          return ((key, v) :: ms, rest)
        | _ => none
      | _ => none
    | _, _ => none

end

def maxNestingDepth : Nat := 10000

/-- The value of a valid text. Every call but that of the first element or member
has read a character since the one before, which bounds the fuel. -/
def parse (body : List UInt8) : Option Value :=
  let cs := runes body
  match value (2 * cs.length + 2) maxNestingDepth cs with
  | some (v, rest) => if skipSpace rest = [] then some v else none
  | none => none

/-! ## Struct fields -/

/-- `foldRune` on the runes that can fold to an ASCII one. -/
def foldRune (c : Char) : Char :=
  if 'a' ≤ c ∧ c ≤ 'z' then Char.ofNat (c.toNat - 32)
  else if c.toNat = 0x17f then 'S'
  else if c.toNat = 0x212a then 'K'
  else c

def foldName (name : String) : List Char := name.toList.map foldRune

/-- The field `name : string` of a struct no two of whose names fold alike. -/
def stringField (name : String) (ms : List (String × Value)) : Option String :=
  ms.foldlM (fun text m =>
    if foldName m.1 = foldName name then
      match m.2 with
      | .string s => some s
      | .null => some text
      | _ => none
    else some text) ""

def isValidNumber (text : String) : Bool :=
  match numberLit text.toList with
  | some (_, []) => true
  | _ => false

def numberField (name : String) (ms : List (String × Value)) : Option String :=
  ms.foldlM (fun text m =>
    if foldName m.1 = foldName name then
      match m.2 with
      | .number n => some n
      | .string s => if isValidNumber s then some s else none
      | .null => some text
      | _ => none
    else some text) ""

end TokoApi.Lib.Json
