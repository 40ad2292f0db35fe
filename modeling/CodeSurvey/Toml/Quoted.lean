import CodeSurvey.Toml.Number
import CodeSurvey.Toml.Scan

/-!
# Quoted texts of a settings file

A text between double quotes may hold escapes, one between single quotes stands for itself; three
quotes on each side allow line feeds and lone quotes.
-/

namespace CodeSurvey.Toml

open CodeSurvey Text

/-- The character that a backslash and a letter stand for. -/
def escaped? (c : Char) : Option Char :=
  if c = '0' then some (Char.ofNat 0)
  else if c = 'b' then some (Char.ofNat 8)
  else if c = 'f' then some (Char.ofNat 12)
  else if c = 'n' then some '\n'
  else if c = 'r' then some '\r'
  else if c = 't' then some '\t'
  else if c = '"' then some '"'
  else none

/-- A text with its short escapes replaced; the escapes of code points stay. `done` holds what is
finished, reversed. -/
def unescape (done : List Char) : List Char → Except ReadError (List Char)
  | [] => .ok done.reverse
  | ['\\'] => .ok ('\\' :: done).reverse
  | '\\' :: c :: rest =>
    match escaped? c with
    | some d => unescape (d :: done) rest
    | none =>
      if c = '\\' then unescape ('\\' :: done) rest
      else if c = 'u' ∨ c = 'U' then unescape (c :: '\\' :: done) rest
      else .error .malformed
  | c :: rest => unescape (c :: done) rest

/-- The pieces of a text between the occurrences of a longer mark; `fuel` is at least the number of
characters. -/
def splitOnMark (mark : List Char) : Nat → List Char → List (List Char)
  | 0, cs => [cs]
  | fuel + 1, cs =>
    match cutAt? mark cs with
    | some (before, after) => before :: splitOnMark mark fuel after
    | none => [cs]

/-- The character of a list of hexadecimal digits. -/
def codeChar (code : List Char) : Except ReadError Char :=
  let lowered := code.map Char.toLower
  match wholeInBase? 16 lowered, lowered with
  | none, [] => .error .truncated
  | none, _ => .error .malformed
  | some _, ['d'] => .error .truncated
  | some n, 'd' :: b :: _ =>
    if (hexValue? b).getD 0 < 8 then .ok (Char.ofNat n) else .error .malformed
  | some n, _ => if n < 0x110000 then .ok (Char.ofNat n) else .error .malformed

/-- A text with the escapes of code points of one width replaced. A mark that a backslash takes is
no escape. -/
def replaceCodes (mark : List Char) (width : Nat) (cs : List Char) :
    Except ReadError (List Char) :=
  match splitOnMark mark cs.length cs with
  | [] => .ok []
  | first :: rest => go (oddBackslashes first.reverse) first rest
where
  /-- `skip` says whether the next mark is taken. -/
  go (skip : Bool) (done : List Char) : List (List Char) → Except ReadError (List Char)
    | [] => .ok done
    | piece :: rest =>
      if skip then go (oddBackslashes piece.reverse) (done ++ mark ++ piece) rest
      else
        match codeChar (piece.take width) with
        | .ok c => go false (done ++ c :: piece.drop width) rest
        | .error e => .error e

/-- Whether every backslash of a text takes a character that may be escaped. -/
def escapesAllowed (cs : List Char) : Bool :=
  go false ((splitOn '\\' cs).drop 1)
where
  /-- `taken` says whether the piece follows a backslash that is taken itself. -/
  go (taken : Bool) : List (List Char) → Bool
    | [] => true
    | [] :: rest => go (!taken) rest
    | (c :: _) :: rest =>
      if (escaped? c).isNone && c != 'u' && c != 'U' && !taken then false else go false rest

/-- Whether nothing follows the closing quote, where `pieces` stand between the quotes of a kind
after the first one. -/
def closesOnce (pieces : List (List Char)) : Bool :=
  match pieces with
  | [] :: [] :: rest => go true 0 false rest
  | pieces => go false 0 false pieces
where
  /-- `count` is the number of closing quotes met, and `closed` says whether the text is closed. -/
  go (triple : Bool) (count : Nat) (closed : Bool) : List (List Char) → Bool
    | [] => true
    | [] :: rest =>
      if triple then go triple (count + 1) closed rest else go triple count true rest
    | p :: rest =>
      if oddBackslashes p.reverse then go triple count closed rest
      else if closed then false
      else if !triple || 1 < count then go triple count true rest
      else go triple 0 closed rest

/-- The text of a quoted value, its quotes included in what is given. -/
def quotedText (quote : Char) (cs : List Char) : Except ReadError String :=
  if !closesOnce (splitOn quote (cs.drop 1)) then .error .malformed
  else
    let inner : Except ReadError (List Char) :=
      if quote = '"' then
        if !escapesAllowed cs then .error .malformed
        else do
          let cs ← replaceCodes ['\\', 'u'] 4 cs
          let cs ← replaceCodes ['\\', 'U'] 8 cs
          unescape [] cs
      else .ok cs
    inner.map fun cs =>
      let cs := match cs with
        | [_, b] => if b = quote then [] else cs
        | _ :: b :: c :: _ => if b = quote ∧ c = b then (cs.drop 2).dropLast.dropLast else cs
        | _ => cs
      String.ofList (cs.drop 1).dropLast

end CodeSurvey.Toml
