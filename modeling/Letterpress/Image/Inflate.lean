/-
# Compressed octets

A compressed stream is a sequence of blocks of bits, the lowest bit of an octet
first. A block holds octets as they are, or words of two prefix codes: one for
octets and for lengths of repetitions, one for how far back these begin. A word
costs a bit at least, so the bits that are left bound every loop.
-/

import Letterpress.Image.Checksum

namespace Letterpress.Inflate

/-- Readers of bits that may fail. -/
abbrev ReadBits := StateT (List Bool) Option

/-- The bits of an octet. -/
def bitsOf (b : UInt8) : List Bool :=
  (List.range 8).map fun i => b.toNat / Nat.pow 2 i % 2 == 1

/-- A number of so many bits, the lowest one first. -/
def number : Nat → ReadBits Nat
  | 0 => return 0
  | n + 1 => fun bits =>
    match bits with
    | [] => none
    | b :: rest => (number n rest).map fun (high, rest) => (b.toNat + 2 * high, rest)

/-- Goes on only if the condition holds. -/
def ensure (condition : Bool) : ReadBits Unit := if condition then return else failure

/-- Passes over bits up to the next octet. -/
def align : ReadBits Unit := fun bits => some ((), bits.drop (bits.length % 8))

/-- A prefix code: for each length of a word, from one bit on, the symbols of that length. Their
words follow each other, and those of the next length follow them. -/
abbrev Code := List (List Nat)

namespace Code

/-- The longest words have so many bits. -/
def longestWord : Nat := 15

/-- The code that gives each symbol a word of the length listed for it, if that is not zero. -/
def ofLengths (lengths : List Nat) : Code :=
  (List.range longestWord).map fun shorter =>
    (lengths.zipIdx.filter fun entry => entry.1 == shorter + 1).map Prod.snd

/-- Whether each sequence of bits begins with a word and no word with another. `free` counts the
sequences of the length before that begin with no word so far. -/
def isCompleteFrom : (free : Nat) → Code → Bool
  | free, [] => free == 0
  | free, symbols :: longer =>
    symbols.length ≤ 2 * free && isCompleteFrom (2 * free - symbols.length) longer

/-- Whether each sequence of bits begins with exactly one word. -/
def isComplete (code : Code) : Bool := code.isCompleteFrom 1

/-- Whether a code may be that of distances, of which there may be one or none. -/
def isForDistances (code : Code) : Bool :=
  code.isComplete || code.all List.isEmpty ||
    ((code.head?.map List.length) == some 1 && code.tail.all List.isEmpty)

/-- The symbol of the next word. `passed` is how far the bits read so far are behind the words of
their length. -/
def symbolFrom : (passed : Nat) → Code → ReadBits Nat
  | _, [] => failure
  | passed, symbols :: longer => do
    let place := 2 * passed + (← number 1)
    match symbols[place]? with
    | some s => return s
    | none => symbolFrom (place - symbols.length) longer

/-- The symbol of the next word. -/
def symbol (code : Code) : ReadBits Nat := code.symbolFrom 0

end Code

/-- Ranges of numbers: where each begins, and how many bits tell its members apart. -/
def rangesFrom : (start : Nat) → List Nat → List (Nat × Nat)
  | _, [] => []
  | start, bits :: rest => (start, bits) :: rangesFrom (start + Nat.pow 2 bits) rest

/-- The lengths of repetitions; the greatest one has a symbol of its own. -/
def lengths : List (Nat × Nat) :=
  rangesFrom 3 [0, 0, 0, 0, 0, 0, 0, 0, 1, 1, 1, 1, 2, 2, 2, 2, 3, 3, 3, 3, 4, 4, 4, 4,
    5, 5, 5, 5] ++ [(258, 0)]

/-- The distances of repetitions. -/
def distances : List (Nat × Nat) :=
  rangesFrom 1 [0, 0, 0, 0, 1, 1, 2, 2, 3, 3, 4, 4, 5, 5, 6, 6, 7, 7, 8, 8, 9, 9, 10, 10, 11, 11,
    12, 12, 13, 13]

/-- The member of a range that the next bits choose. -/
def member (ranges : List (Nat × Nat)) (place : Nat) : ReadBits Nat := do
  match ranges[place]? with
  | some (start, bits) => return start + (← number bits)
  | none => failure

/-- Repeats so many octets from a distance behind the end. -/
def repeated (out : Array UInt8) (distance : Nat) : Nat → Array UInt8
  | 0 => out
  | n + 1 => repeated (out.push (out.getD (out.size - distance) 0)) distance n

/-- The symbol that ends a block. -/
def blockEnd : Nat := 256

/-- Adds the content of a coded block to the octets before it, at most so many words. -/
def codedWithin (words backward : Code) : Nat → Array UInt8 → ReadBits (Array UInt8)
  | 0, _ => failure
  | fuel + 1, out => do
    let s ← words.symbol
    if s = blockEnd then return out
    else if s < blockEnd then codedWithin words backward fuel (out.push s.toUInt8)
    else
      let length ← member lengths (s - blockEnd - 1)
      let distance ← member distances (← backward.symbol)
      ensure (distance ≤ out.size)
      codedWithin words backward fuel (repeated out distance length)

/-- Adds the content of a coded block to the octets before it. -/
def coded (words backward : Code) (out : Array UInt8) : ReadBits (Array UInt8) := fun bits =>
  codedWithin words backward (bits.length + 1) out bits

/-- Adds so many octets as they are. -/
def plainOctets : Nat → Array UInt8 → ReadBits (Array UInt8)
  | 0, out => return out
  | n + 1, out => do plainOctets n (out.push (← number 8).toUInt8)

/-- Adds the content of a block of octets as they are, whose count is given twice, the second
time with each bit reversed. -/
def plain (out : Array UInt8) : ReadBits (Array UInt8) := do
  align
  let count ← number 16
  ensure (count + (← number 16) = 65535)
  plainOctets count out

/-- The code of words that needs no description. -/
def fixedWords : Code :=
  .ofLengths (List.replicate 144 8 ++ List.replicate 112 9 ++ List.replicate 24 7 ++
    List.replicate 8 8)

/-- The code of distances that needs no description. -/
def fixedDistances : Code := .ofLengths (List.replicate 32 5)

/-- The order in which a description gives the word lengths of the code that it is written in. -/
def descriptionOrder : List Nat :=
  [16, 17, 18, 0, 8, 7, 9, 6, 10, 5, 11, 4, 12, 3, 13, 2, 14, 1, 15]

/-- So many numbers of three bits. -/
def smallNumbers : Nat → ReadBits (List Nat)
  | 0 => return []
  | n + 1 => do
    let first ← number 3
    return first :: (← smallNumbers n)

/-- So many word lengths in a description, which is at most so many words long. The latest ones
come first in `known`. -/
def wordLengths (code : Code) (count : Nat) : Nat → (known : List Nat) → ReadBits (List Nat)
  | 0, _ => failure
  | fuel + 1, known => do
    if count ≤ known.length then
      ensure (known.length = count)
      return known.reverse
    else
      let again (length times : Nat) : ReadBits (List Nat) :=
        wordLengths code count fuel (List.replicate times length ++ known)
      match ← code.symbol, known with
      | 16, [] => failure
      | 16, latest :: _ => again latest (3 + (← number 2))
      | 17, _ => again 0 (3 + (← number 3))
      | 18, _ => again 0 (11 + (← number 7))
      | length, _ => again length 1

/-- The codes of words and of distances as a block describes them. -/
def described : ReadBits (Code × Code) := do
  let wordCount := 257 + (← number 5)
  let distanceCount := 1 + (← number 5)
  ensure (wordCount ≤ 286 && distanceCount ≤ 30)
  let given := descriptionOrder.zip (← smallNumbers (4 + (← number 4)))
  let code := Code.ofLengths ((List.range 19).map fun s => (given.lookup s).getD 0)
  ensure code.isComplete
  let count := wordCount + distanceCount
  let known ← wordLengths code count (count + 1) []
  let words := Code.ofLengths (known.take wordCount)
  let backward := Code.ofLengths (known.drop wordCount)
  ensure (known[blockEnd]? != some 0 && words.isComplete && backward.isForDistances)
  return (words, backward)

/-- Adds the content of a block. -/
def block (out : Array UInt8) : ReadBits (Array UInt8) := do
  match ← number 2 with
  | 0 => plain out
  | 1 => coded fixedWords fixedDistances out
  | 2 =>
    let (words, backward) ← described
    coded words backward out
  | _ => failure

/-- Adds the content of blocks up to the one that says it is the last, at most so many. -/
def blocks : Nat → Array UInt8 → ReadBits (Array UInt8)
  | 0, _ => failure
  | fuel + 1, out => do
    let last ← number 1
    let out ← block out
    if last = 1 then return out else blocks fuel out

/-- Whether two octets announce a stream that needs no octets known beforehand. -/
def announces (method flags : Nat) : Bool :=
  method % 16 == 8 && method / 16 ≤ 7 && flags / 32 % 2 == 0 && (256 * method + flags) % 31 == 0

/-- The octets of a stream, if it is sound. What follows it does not matter. -/
def inflate? (stream : Octets) : Option Octets :=
  match stream with
  | method :: flags :: rest =>
    if announces method.toNat flags.toNat then
      let reader : ReadBits (Array UInt8) := do
        let out ← blocks (8 * rest.length + 1) #[]
        align
        let sum ← plainOctets 4 #[]
        ensure (sum.foldl (fun n b => 256 * n + b.toNat) 0 = Checksum.adler32 out.toList)
        return out
      (reader (rest.flatMap bitsOf)).map fun (out, _) => out.toList
    else none
  | _ => none

end Letterpress.Inflate
