import XmlWorkload.Random.Words

/-!
# The ChaCha stream with twelve rounds

Words come in blocks of sixteen.  A block is the sum of a start and what twelve rounds of mixing
make of it; the start holds four constants, a key of eight words, and the number of the block.
The key comes from a seed of 64 bits.
-/

set_option autoImplicit false

namespace XmlWorkload.Random

/-- The state of the generator that stretches a seed, after one more step. -/
def stretch (state : UInt64) : UInt64 := state * 6364136223846793005 + 11634580027462260723

/-- A word turned to the right. -/
def turnRight (value : UInt32) (count : UInt32) : UInt32 :=
  (value >>> count) ||| (value <<< ((32 - count) &&& 31))

/-- A word turned to the left. -/
def turnLeft (value : UInt32) (count : UInt32) : UInt32 :=
  (value <<< count) ||| (value >>> (32 - count))

/-- The word that a state of the stretching generator gives. -/
def stretchedWord (state : UInt64) : UInt32 :=
  turnRight (((state >>> 18) ^^^ state) >>> 27).toUInt32 (state >>> 59).toUInt32

/-- So many words that a seed is stretched to. -/
def stretchedWords : (count : Nat) → UInt64 → List UInt32
  | 0, _ => []
  | count + 1, state =>
    let state := stretch state
    stretchedWord state :: stretchedWords count state

/-- Four words mixed with each other. -/
def quarterRound (a b c d : UInt32) : UInt32 × UInt32 × UInt32 × UInt32 :=
  let a := a + b
  let d := turnLeft (d ^^^ a) 16
  let c := c + d
  let b := turnLeft (b ^^^ c) 12
  let a := a + b
  let d := turnLeft (d ^^^ a) 8
  let c := c + d
  let b := turnLeft (b ^^^ c) 7
  (a, b, c, d)

/-- A block with the words at four places mixed. -/
def mixAt (block : Array UInt32) (i j k l : Nat) : Array UInt32 :=
  let (a, b, c, d) :=
    quarterRound (block.getD i 0) (block.getD j 0) (block.getD k 0) (block.getD l 0)
  (((block.setIfInBounds i a).setIfInBounds j b).setIfInBounds k c).setIfInBounds l d

/-- The places that a round along the columns and one along the diagonals mix. -/
def roundPlaces : List (Nat × Nat × Nat × Nat) :=
  [(0, 4, 8, 12), (1, 5, 9, 13), (2, 6, 10, 14), (3, 7, 11, 15),
   (0, 5, 10, 15), (1, 6, 11, 12), (2, 7, 8, 13), (3, 4, 9, 14)]

/-- A block after a round along the columns and one along the diagonals. -/
def doubleRound (block : Array UInt32) : Array UInt32 :=
  roundPlaces.foldl (fun block (i, j, k, l) => mixAt block i j k l) block

/-- A block after so many rounds of both kinds. -/
def doubleRounds : (count : Nat) → Array UInt32 → Array UInt32
  | 0, block => block
  | count + 1, block => doubleRounds count (doubleRound block)

/-- The constants at the start of every block. -/
def constants : List UInt32 := [0x61707865, 0x3320646e, 0x79622d32, 0x6b206574]

/-- The start of a block. -/
def blockStart (key : List UInt32) (number : UInt64) : Array UInt32 :=
  (constants ++ key ++ [number.toUInt32, (number >>> 32).toUInt32, 0, 0]).toArray

/-- The words of a block. -/
def block (key : List UInt32) (number : UInt64) : List UInt32 :=
  let start := blockStart key number
  List.zipWith (· + ·) (doubleRounds 6 start).toList start.toList

/-- A ChaCha stream. -/
structure ChaCha where
  key : List UInt32
  nextBlock : UInt64
  /-- The words of the last block that have not been drawn. -/
  words : List UInt32
  deriving DecidableEq, Repr

namespace ChaCha

/-- The stream of a seed. -/
def ofSeed (seed : UInt64) : ChaCha := ⟨stretchedWords 8 seed, 0, []⟩

/-- The next word of a stream, and the stream behind it. -/
def next (stream : ChaCha) : UInt32 × ChaCha :=
  match stream.words with
  | word :: words => (word, { stream with words })
  | [] =>
    let words := block stream.key stream.nextBlock
    (words.headD 0, ⟨stream.key, stream.nextBlock + 1, words.drop 1⟩)

instance : WordSource ChaCha := ⟨next⟩

end ChaCha

/-- The factor that spreads the cycles of a run over the seeds. -/
def cycleFactor : UInt64 := 0x9E3779B97F4A7C15

/-- The seed of a cycle of a run. -/
def cycleSeed (seed cycle : UInt64) : UInt64 := seed + cycle * cycleFactor

/-- The stream of a cycle of a run. -/
def cycleStream (seed cycle : UInt64) : ChaCha := .ofSeed (cycleSeed seed cycle)

end XmlWorkload.Random
