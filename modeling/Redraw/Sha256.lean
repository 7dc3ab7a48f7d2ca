import Redraw.Bytes

/-!
# SHA-256

A message is padded to whole blocks of 64 bytes, and each block is mixed into a chain of eight
words. The digest is the bytes of the chain after the last block.
-/

namespace Redraw.Sha256

/-- The chain that blocks are mixed into. -/
abbrev Chain := Vector UInt32 8

/-- The sixteen message words that the coming rounds still draw on, in a ring. -/
abbrev Window := Vector UInt32 16

/-- The chain before the first block: fractional parts of the square roots of the first eight
primes. -/
def start : Chain :=
  #v[0x6A09E667, 0xBB67AE85, 0x3C6EF372, 0xA54FF53A, 0x510E527F, 0x9B05688C, 0x1F83D9AB, 0x5BE0CD19]

/-- One constant for each round: fractional parts of the cube roots of the first 64 primes. -/
def roundConstants : List UInt32 :=
  [0x428A2F98, 0x71374491, 0xB5C0FBCF, 0xE9B5DBA5, 0x3956C25B, 0x59F111F1, 0x923F82A4, 0xAB1C5ED5,
   0xD807AA98, 0x12835B01, 0x243185BE, 0x550C7DC3, 0x72BE5D74, 0x80DEB1FE, 0x9BDC06A7, 0xC19BF174,
   0xE49B69C1, 0xEFBE4786, 0x0FC19DC6, 0x240CA1CC, 0x2DE92C6F, 0x4A7484AA, 0x5CB0A9DC, 0x76F988DA,
   0x983E5152, 0xA831C66D, 0xB00327C8, 0xBF597FC7, 0xC6E00BF3, 0xD5A79147, 0x06CA6351, 0x14292967,
   0x27B70A85, 0x2E1B2138, 0x4D2C6DFC, 0x53380D13, 0x650A7354, 0x766A0ABB, 0x81C2C92E, 0x92722C85,
   0xA2BFE8A1, 0xA81A664B, 0xC24B8B70, 0xC76C51A3, 0xD192E819, 0xD6990624, 0xF40E3585, 0x106AA070,
   0x19A4C116, 0x1E376C08, 0x2748774C, 0x34B0BCB5, 0x391C0CB3, 0x4ED8AA4A, 0x5B9CCA4F, 0x682E6FF3,
   0x748F82EE, 0x78A5636F, 0x84C87814, 0x8CC70208, 0x90BEFFFA, 0xA4506CEB, 0xBEF9A3F7, 0xC67178F2]

/-- Turns a word to the right by `n` bits, where `0 < n < 32`. -/
def rotate (word n : UInt32) : UInt32 :=
  (word >>> n) ||| (word <<< (32 - n))

/-- The message word sixteen places on, from the window whose oldest word stands at `i`. -/
def extension (window : Window) (i : Fin 16) : UInt32 :=
  let near := window[i + 1]
  let far := window[i + 14]
  window[i] + (rotate near 7 ^^^ rotate near 18 ^^^ (near >>> 3)) + window[i + 9] +
    (rotate far 17 ^^^ rotate far 19 ^^^ (far >>> 10))

/-- One round: mixes a constant and a message word into the chain. -/
def round (chain : Chain) (constant word : UInt32) : Chain :=
  let (a, b, c, d) := (chain[0], chain[1], chain[2], chain[3])
  let (e, f, g, h) := (chain[4], chain[5], chain[6], chain[7])
  let mixed := h + (rotate e 6 ^^^ rotate e 11 ^^^ rotate e 25) +
    ((e &&& f) ^^^ (~~~e &&& g)) + constant + word
  let spread := (rotate a 2 ^^^ rotate a 13 ^^^ rotate a 22) +
    ((a &&& b) ^^^ (a &&& c) ^^^ (b &&& c))
  #v[mixed + spread, a, b, c, d + mixed, e, f, g]

/-- The remaining rounds, one for each constant. The window gives up its oldest word to each. -/
def rounds : List UInt32 → Fin 16 → Window → Chain → Chain
  | [], _, _, chain => chain
  | constant :: constants, i, window, chain =>
    rounds constants (i + 1) (window.set i (extension window i)) (round chain constant window[i])

/-- The number that bytes stand for, the most significant first. -/
def wordOf (bytes : Bytes) : UInt32 :=
  bytes.foldl (fun word byte => (word <<< 8) ||| byte.toUInt32) 0

/-- Mixes a block of 64 bytes into the chain. -/
def absorb (chain : Chain) (block : Bytes) : Chain :=
  let words := ((Bytes.pieces 4 block).map wordOf).toArray
  let window := Vector.ofFn fun i : Fin 16 => words.getD i 0
  chain.zipWith (· + ·) (rounds roundConstants 0 window chain)

/-- A message padded to whole blocks: a one bit, zeros, and the message's length in bits as eight
bytes. -/
def padded (message : Bytes) : Bytes :=
  let zeros := (64 - (message.length + 9) % 64) % 64
  message ++ 0x80 :: List.replicate zeros 0 ++ Bytes.bigEndian 8 (8 * message.length)

/-- The digest of a message, 32 bytes. -/
def digest (message : Bytes) : Bytes :=
  ((Bytes.pieces 64 (padded message)).foldl absorb start).toList.flatMap fun word =>
    Bytes.bigEndian 4 word.toNat

end Redraw.Sha256
