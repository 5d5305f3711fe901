import LiveDetection.Capture.Program
import LiveDetection.Clock
import LiveDetection.Files.Path
import LiveDetection.Number.Radix

/-!
# Players

A player is a stand-in for a decoder program. The address that it is asked to decode is its
script: parts between semicolons, which are played one after the other.
-/

namespace LiveDetection.Rehearsal

/-- A system with one program, the player. -/
structure PlayerSystem where
  /-- The name of the player. -/
  program : String
  /-- Whether a part that is played only once was played. -/
  played : Bool := false
deriving DecidableEq, Repr

/-- A part of a script. -/
inductive PlayerPart where
  /-- Write bytes. -/
  | bytes (data : List UInt8)
  /-- Write all arguments, a line each, and 4096 zeros. -/
  | arguments
  /-- Wait. -/
  | pause (duration : Nat)
  /-- Go on only the first time. -/
  | once
  /-- Exit. -/
  | exit
deriving DecidableEq, Repr

/-- What follows a word at the front. -/
def afterWord? (word : String) (s : List Char) : Option (List Char) :=
  if word.toList.isPrefixOf s then some (s.drop word.length) else none

/-- The bytes that pairs of hexadecimal digits spell. -/
def ofHexPairs? : List Char → Option (List UInt8)
  | [] => some []
  | [_] => none
  | a :: b :: rest => do
    let n ← ofRadixText? 16 [a, b]
    let bytes ← ofHexPairs? rest
    return UInt8.ofNat n :: bytes

/-- The part that a text spells. Pauses are given in milliseconds. -/
def PlayerPart.ofText [Resolution] (s : List Char) : PlayerPart :=
  if s = "once".toList then .once
  else if s = "args".toList ∨ (afterWord? "args:" s).isSome then .arguments
  else
    match afterWord? "hex:" s, afterWord? "delay:" s with
    | some digits, _ => ((ofHexPairs? digits).map bytes).getD .exit
    | none, some digits =>
      match spanDigits digits with
      | (d :: ds, []) => .pause (millis (ofDigits (d :: ds)))
      | _ => .exit
    | none, none => .exit

/-- How many zeros follow the arguments. -/
def argumentPadding : Nat := 4096

/-- What a player writes for its arguments. -/
def argumentText (arguments : List String) : List UInt8 :=
  ("\n".intercalate arguments).toUTF8.toList ++ List.replicate argumentPadding 0

/-- Play parts, after a pause that is still to come. The answer says whether a part that is
played only once has been played by then. -/
def play (arguments : List String) (pause : Nat) (played : Bool) :
    List PlayerPart → List Burst × Bool
  | [] => ([⟨pause, []⟩], played)
  | .bytes data :: rest =>
    let later := play arguments 0 played rest
    (⟨pause, data⟩ :: later.1, later.2)
  | .arguments :: rest =>
    let later := play arguments 0 played rest
    (⟨pause, argumentText arguments⟩ :: later.1, later.2)
  | .pause duration :: rest => play arguments (pause + duration) played rest
  | .once :: rest => if played then ([⟨pause, []⟩], true) else play arguments pause true rest
  | .exit :: _ => ([⟨pause, []⟩], played)

instance [Resolution] : Launcher PlayerSystem where
  launch program arguments s :=
    if program = s.program then
      let script := (arguments[4]?.getD "").toList
      let parts := (Path.splitOn ';' script).map PlayerPart.ofText
      let performance := play arguments 0 s.played parts
      (some performance.1, { s with played := performance.2 })
    else (none, s)

end LiveDetection.Rehearsal
