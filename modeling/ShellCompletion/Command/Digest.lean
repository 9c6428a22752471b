import ShellCompletion.Bytes

/-!
# Digests

Short texts that stand for long ones: cyclic redundancy checks, and the digests that mix blocks of a text
into a state of words. A text is filled up to whole blocks by a one, zeros, and its length in bits.
-/
namespace ShellCompletion.Digest

/-! ## Checks -/

/-- A byte divided into the check: eight steps of the division by the polynomial. -/
def crcStep (crc : UInt32) (c : UInt8) : UInt32 :=
  (List.range 8).foldl (fun crc _ =>
    if crc &&& 0x80000000 ≠ 0 then (crc <<< 1) ^^^ 0x04C11DB7 else crc <<< 1)
    (crc ^^^ (c.toUInt32 <<< 24))

/-- The bytes of a number, the least one first, as few as it needs. -/
def lengthBytes : (fuel n : Nat) → Bytes
  | 0, _ => []
  | fuel + 1, n => if n = 0 then [] else UInt8.ofNat n :: lengthBytes fuel (n / 256)

/-- The check of a text and its length. -/
def crc (text : Bytes) : UInt32 :=
  ~~~((text ++ lengthBytes 16 text.length).foldl crcStep 0)

/-- The check that turns its bits by one place for each byte. -/
def rotating (text : Bytes) : Nat :=
  text.foldl (fun sum c => (sum / 2 + sum % 2 * 32768 + c.toNat) % 65536) 0

/-- The sum of the bytes, folded into sixteen bits. -/
def folded (text : Bytes) : Nat :=
  let sum := text.foldl (fun sum c => sum + c.toNat) 0 % 4294967296
  let once := sum % 65536 + sum / 65536
  once % 65536 + once / 65536

/-! ## Blocks -/

/-- A number as so many bytes, the greatest first. -/
def bigBytes (count n : Nat) : Bytes :=
  (List.range count).reverse.map fun k => UInt8.ofNat (n >>> (8 * k))

def filled (block lengthSize : Nat) (length : Nat → Bytes) (text : Bytes) : Bytes :=
  let used := (text.length + 1 + lengthSize) % block
  text ++ 128 :: List.replicate ((block - used) % block) 0 ++ length (8 * text.length)

def blocks (size : Nat) : (fuel : Nat) → Bytes → List Bytes
  | 0, _ => []
  | fuel + 1, text => if text.isEmpty then [] else text.take size :: blocks size fuel (text.drop size)

/-- The words of a block, with the greatest byte first. -/
def bigWords (size : Nat) (block : Bytes) : Array Nat :=
  ((blocks size block.length block).map fun word => word.foldl (fun n c => 256 * n + c.toNat) 0).toArray

/-- The words of a block, with the least byte first. -/
def littleWords (block : Bytes) : Array UInt32 :=
  ((blocks 4 block.length block).map fun word =>
    UInt32.ofNat (word.foldr (fun c n => 256 * n + c.toNat) 0)).toArray

def rotate (x n : UInt32) : UInt32 := (x <<< n) ||| (x >>> (32 - n))

def turn (x n : UInt32) : UInt32 := (x >>> n) ||| (x <<< (32 - n))

def turn64 (x n : UInt64) : UInt64 := (x >>> n) ||| (x <<< (64 - n))

/-! ## The digest of 128 bits -/

def md5Constants : Array UInt32 :=
  #[0xd76aa478, 0xe8c7b756, 0x242070db, 0xc1bdceee, 0xf57c0faf, 0x4787c62a, 0xa8304613, 0xfd469501,
    0x698098d8, 0x8b44f7af, 0xffff5bb1, 0x895cd7be, 0x6b901122, 0xfd987193, 0xa679438e, 0x49b40821,
    0xf61e2562, 0xc040b340, 0x265e5a51, 0xe9b6c7aa, 0xd62f105d, 0x02441453, 0xd8a1e681, 0xe7d3fbc8,
    0x21e1cde6, 0xc33707d6, 0xf4d50d87, 0x455a14ed, 0xa9e3e905, 0xfcefa3f8, 0x676f02d9, 0x8d2a4c8a,
    0xfffa3942, 0x8771f681, 0x6d9d6122, 0xfde5380c, 0xa4beea44, 0x4bdecfa9, 0xf6bb4b60, 0xbebfbc70,
    0x289b7ec6, 0xeaa127fa, 0xd4ef3085, 0x04881d05, 0xd9d4d039, 0xe6db99e5, 0x1fa27cf8, 0xc4ac5665,
    0xf4292244, 0x432aff97, 0xab9423a7, 0xfc93a039, 0x655b59c3, 0x8f0ccc92, 0xffeff47d, 0x85845dd1,
    0x6fa87e4f, 0xfe2ce6e0, 0xa3014314, 0x4e0811a1, 0xf7537e82, 0xbd3af235, 0x2ad7d2bb, 0xeb86d391]

def md5Turns : Array UInt32 :=
  #[7, 12, 17, 22, 5, 9, 14, 20, 4, 11, 16, 23, 6, 10, 15, 21]

def md5Block (state : UInt32 × UInt32 × UInt32 × UInt32) (block : Bytes) :
    UInt32 × UInt32 × UInt32 × UInt32 :=
  let words := littleWords block
  let (a0, b0, c0, d0) := state
  let (a, b, c, d) := (List.range 64).foldl (fun (a, b, c, d) i =>
    let (f, g) : UInt32 × Nat :=
      if i < 16 then ((b &&& c) ||| (~~~b &&& d), i)
      else if i < 32 then ((d &&& b) ||| (~~~d &&& c), (5 * i + 1) % 16)
      else if i < 48 then (b ^^^ c ^^^ d, (3 * i + 5) % 16)
      else (c ^^^ (b ||| ~~~d), (7 * i) % 16)
    let sum := a + f + md5Constants[i]?.getD 0 + words[g]?.getD 0
    (d, b + rotate sum (md5Turns[i / 16 * 4 + i % 4]?.getD 0), b, c)) state
  (a0 + a, b0 + b, c0 + c, d0 + d)

def md5 (text : Bytes) : Bytes :=
  let length (n : Nat) : Bytes := (bigBytes 8 n).reverse
  let (a, b, c, d) := (blocks 64 (text.length + 72) (filled 64 8 length text)).foldl md5Block
    (0x67452301, 0xefcdab89, 0x98badcfe, 0x10325476)
  [a, b, c, d].flatMap fun word => (bigBytes 4 word.toNat).reverse

/-! ## The digest of 160 bits -/

def sha1Words (block : Bytes) : Array UInt32 :=
  (List.range 64).foldl (fun words i =>
    let word (k : Nat) : UInt32 := words[i + 16 - k]?.getD 0
    words.push (rotate (word 3 ^^^ word 8 ^^^ word 14 ^^^ word 16) 1))
    ((bigWords 4 block).map UInt32.ofNat)

def sha1Block (state : List UInt32) (block : Bytes) : List UInt32 :=
  let words := sha1Words block
  let start := (state.getD 0 0, state.getD 1 0, state.getD 2 0, state.getD 3 0, state.getD 4 0)
  let (a, b, c, d, e) := (List.range 80).foldl (fun (a, b, c, d, e) i =>
    let (f, k) : UInt32 × UInt32 :=
      if i < 20 then ((b &&& c) ||| (~~~b &&& d), 0x5a827999)
      else if i < 40 then (b ^^^ c ^^^ d, 0x6ed9eba1)
      else if i < 60 then ((b &&& c) ||| (b &&& d) ||| (c &&& d), 0x8f1bbcdc)
      else (b ^^^ c ^^^ d, 0xca62c1d6)
    (rotate a 5 + f + e + k + words[i]?.getD 0, a, rotate b 30, c, d)) start
  (state.zip [a, b, c, d, e]).map fun (old, new) => old + new

def sha1 (text : Bytes) : Bytes :=
  ((blocks 64 (text.length + 72) (filled 64 8 (bigBytes 8) text)).foldl sha1Block
    [0x67452301, 0xefcdab89, 0x98badcfe, 0x10325476, 0xc3d2e1f0]).flatMap fun word =>
    bigBytes 4 word.toNat

/-! ## The digests of 224 to 512 bits -/

/-- The first bits of the fractions of the cube roots of the first primes. -/
def roots : Array UInt64 :=
  #[0x428a2f98d728ae22, 0x7137449123ef65cd, 0xb5c0fbcfec4d3b2f, 0xe9b5dba58189dbbc, 0x3956c25bf348b538,
    0x59f111f1b605d019, 0x923f82a4af194f9b, 0xab1c5ed5da6d8118, 0xd807aa98a3030242, 0x12835b0145706fbe,
    0x243185be4ee4b28c, 0x550c7dc3d5ffb4e2, 0x72be5d74f27b896f, 0x80deb1fe3b1696b1, 0x9bdc06a725c71235,
    0xc19bf174cf692694, 0xe49b69c19ef14ad2, 0xefbe4786384f25e3, 0x0fc19dc68b8cd5b5, 0x240ca1cc77ac9c65,
    0x2de92c6f592b0275, 0x4a7484aa6ea6e483, 0x5cb0a9dcbd41fbd4, 0x76f988da831153b5, 0x983e5152ee66dfab,
    0xa831c66d2db43210, 0xb00327c898fb213f, 0xbf597fc7beef0ee4, 0xc6e00bf33da88fc2, 0xd5a79147930aa725,
    0x06ca6351e003826f, 0x142929670a0e6e70, 0x27b70a8546d22ffc, 0x2e1b21385c26c926, 0x4d2c6dfc5ac42aed,
    0x53380d139d95b3df, 0x650a73548baf63de, 0x766a0abb3c77b2a8, 0x81c2c92e47edaee6, 0x92722c851482353b,
    0xa2bfe8a14cf10364, 0xa81a664bbc423001, 0xc24b8b70d0f89791, 0xc76c51a30654be30, 0xd192e819d6ef5218,
    0xd69906245565a910, 0xf40e35855771202a, 0x106aa07032bbd1b8, 0x19a4c116b8d2d0c8, 0x1e376c085141ab53,
    0x2748774cdf8eeb99, 0x34b0bcb5e19b48a8, 0x391c0cb3c5c95a63, 0x4ed8aa4ae3418acb, 0x5b9cca4f7763e373,
    0x682e6ff3d6b2b8a3, 0x748f82ee5defb2fc, 0x78a5636f43172f60, 0x84c87814a1f0ab72, 0x8cc702081a6439ec,
    0x90befffa23631e28, 0xa4506cebde82bde9, 0xbef9a3f7b2c67915, 0xc67178f2e372532b, 0xca273eceea26619c,
    0xd186b8c721c0c207, 0xeada7dd6cde0eb1e, 0xf57d4f7fee6ed178, 0x06f067aa72176fba, 0x0a637dc5a2c898a6,
    0x113f9804bef90dae, 0x1b710b35131c471b, 0x28db77f523047d84, 0x32caab7b40c72493, 0x3c9ebe0a15c9bebc,
    0x431d67c49c100d4c, 0x4cc5d4becb3e42b6, 0x597f299cfc657e2a, 0x5fcb6fab3ad6faec, 0x6c44198c4a475817]

/-- One round of the digests of this kind. The state is a list of eight words. -/
def round {Word : Type} [Inhabited Word] [Add Word] [XorOp Word] [AndOp Word] [Complement Word]
    (turned turned' : Word → Word) (state : List Word) (constant word : Word) : List Word :=
  match state with
  | [a, b, c, d, e, f, g, h] =>
    let first := h + turned' e + ((e &&& f) ^^^ (~~~e &&& g)) + constant + word
    let second := turned a + ((a &&& b) ^^^ (a &&& c) ^^^ (b &&& c))
    [first + second, a, b, c, d + first, e, f, g]
  | state => state

def sha256Words (block : Bytes) : Array UInt32 :=
  (List.range 48).foldl (fun words i =>
    let word (k : Nat) : UInt32 := words[i + 16 - k]?.getD 0
    let a := turn (word 15) 7 ^^^ turn (word 15) 18 ^^^ (word 15 >>> 3)
    let b := turn (word 2) 17 ^^^ turn (word 2) 19 ^^^ (word 2 >>> 10)
    words.push (word 16 + a + word 7 + b)) ((bigWords 4 block).map UInt32.ofNat)

def sha256Block (state : List UInt32) (block : Bytes) : List UInt32 :=
  let words := sha256Words block
  let after := (List.range 64).foldl (fun state (i : Nat) =>
    let root : UInt64 := (roots[i]?).getD 0
    round (fun a => turn a 2 ^^^ turn a 13 ^^^ turn a 22)
      (fun e => turn e 6 ^^^ turn e 11 ^^^ turn e 25) state
      (root >>> 32).toUInt32 (words[i]?.getD 0)) state
  (state.zip after).map fun (old, new) => old + new

def sha256From (start : List UInt32) (text : Bytes) : Bytes :=
  ((blocks 64 (text.length + 72) (filled 64 8 (bigBytes 8) text)).foldl sha256Block start).flatMap
    fun word => bigBytes 4 word.toNat

def sha256 (text : Bytes) : Bytes :=
  sha256From [0x6a09e667, 0xbb67ae85, 0x3c6ef372, 0xa54ff53a, 0x510e527f, 0x9b05688c, 0x1f83d9ab,
    0x5be0cd19] text

def sha224 (text : Bytes) : Bytes :=
  (sha256From [0xc1059ed8, 0x367cd507, 0x3070dd17, 0xf70e5939, 0xffc00b31, 0x68581511, 0x64f98fa7,
    0xbefa4fa4] text).take 28

def sha512Words (block : Bytes) : Array UInt64 :=
  (List.range 64).foldl (fun words i =>
    let word (k : Nat) : UInt64 := words[i + 16 - k]?.getD 0
    let a := turn64 (word 15) 1 ^^^ turn64 (word 15) 8 ^^^ (word 15 >>> 7)
    let b := turn64 (word 2) 19 ^^^ turn64 (word 2) 61 ^^^ (word 2 >>> 6)
    words.push (word 16 + a + word 7 + b)) ((bigWords 8 block).map UInt64.ofNat)

def sha512Block (state : List UInt64) (block : Bytes) : List UInt64 :=
  let words := sha512Words block
  let after := (List.range 80).foldl (fun state (i : Nat) =>
    let root : UInt64 := (roots[i]?).getD 0
    round (fun a => turn64 a 28 ^^^ turn64 a 34 ^^^ turn64 a 39)
      (fun e => turn64 e 14 ^^^ turn64 e 18 ^^^ turn64 e 41) state
      root (words[i]?.getD 0)) state
  (state.zip after).map fun (old, new) => old + new

def sha512From (start : List UInt64) (text : Bytes) : Bytes :=
  ((blocks 128 (text.length + 144) (filled 128 16 (bigBytes 16) text)).foldl sha512Block start).flatMap
    fun word => bigBytes 8 word.toNat

def wideStart : List UInt64 :=
  [0x6a09e667f3bcc908, 0xbb67ae8584caa73b, 0x3c6ef372fe94f82b, 0xa54ff53a5f1d36f1,
   0x510e527fade682d1, 0x9b05688c2b3e6c1f, 0x1f83d9abfb41bd6b, 0x5be0cd19137e2179]

def sha512 (text : Bytes) : Bytes := sha512From wideStart text

def sha384 (text : Bytes) : Bytes :=
  (sha512From [0xcbbb9d5dc1059ed8, 0x629a292a367cd507, 0x9159015a3070dd17, 0x152fecd8f70e5939,
    0x67332667ffc00b31, 0x8eb44a8768581511, 0xdb0c2e0d64f98fa7, 0x47b5481dbefa4fa4] text).take 48

/-! ## The digest of any length -/

/-- The orders in which the rounds take the words of a block. -/
def orders : Array (Array Nat) :=
  #[#[0, 1, 2, 3, 4, 5, 6, 7, 8, 9, 10, 11, 12, 13, 14, 15],
    #[14, 10, 4, 8, 9, 15, 13, 6, 1, 12, 0, 2, 11, 7, 5, 3],
    #[11, 8, 12, 0, 5, 2, 15, 13, 10, 14, 3, 6, 7, 1, 9, 4],
    #[7, 9, 3, 1, 13, 12, 11, 14, 2, 6, 5, 10, 4, 0, 15, 8],
    #[9, 0, 5, 7, 2, 4, 10, 15, 14, 1, 11, 12, 6, 8, 3, 13],
    #[2, 12, 6, 10, 0, 11, 8, 3, 4, 13, 7, 5, 15, 14, 1, 9],
    #[12, 5, 1, 15, 14, 13, 4, 10, 0, 7, 6, 3, 9, 2, 8, 11],
    #[13, 11, 7, 14, 12, 1, 3, 9, 5, 0, 15, 4, 8, 6, 2, 10],
    #[6, 15, 14, 9, 11, 3, 0, 8, 12, 2, 13, 7, 1, 4, 10, 5],
    #[10, 2, 8, 4, 7, 6, 1, 5, 15, 11, 9, 14, 3, 12, 13, 0]]

/-- The words of the state that are mixed with one another in a round: columns, then diagonals. -/
def quarters : List (Nat × Nat × Nat × Nat) :=
  [(0, 4, 8, 12), (1, 5, 9, 13), (2, 6, 10, 14), (3, 7, 11, 15),
   (0, 5, 10, 15), (1, 6, 11, 12), (2, 7, 8, 13), (3, 4, 9, 14)]

/-- Four words of the state mixed with two words of a block. -/
def mix (state : Array UInt64) (quarter : Nat × Nat × Nat × Nat) (x y : UInt64) : Array UInt64 :=
  let (i, j, k, l) := quarter
  let word (index : Nat) : UInt64 := (state[index]?).getD 0
  let (a, b, c, d) := (word i, word j, word k, word l)
  let a := a + b + x
  let d := turn64 (d ^^^ a) 32
  let c := c + d
  let b := turn64 (b ^^^ c) 24
  let a := a + b + y
  let d := turn64 (d ^^^ a) 16
  let c := c + d
  let b := turn64 (b ^^^ c) 63
  (((state.setIfInBounds i a).setIfInBounds j b).setIfInBounds k c).setIfInBounds l d

def blakeBlock (state : List UInt64) (block : Bytes) (count : Nat) (isLast : Bool) : List UInt64 :=
  let block := block ++ List.replicate (128 - block.length) 0
  let words := ((blocks 8 128 block).map fun word =>
    UInt64.ofNat (word.foldr (fun c n => 256 * n + c.toNat) 0)).toArray
  let second := wideStart.zipIdx.map fun (word, index) =>
    if index = 4 then word ^^^ UInt64.ofNat count
    else if index = 6 && isLast then ~~~word else word
  let mixed := (List.range 12).foldl (fun (mixed : Array UInt64) (round : Nat) =>
    let order : Array Nat := (orders[round % 10]?).getD #[]
    let word (index : Nat) : UInt64 := (words[(order[index]?).getD 0]?).getD 0
    quarters.zipIdx.foldl (fun mixed (quarter, index) =>
      mix mixed quarter (word (2 * index)) (word (2 * index + 1))) mixed) (state ++ second).toArray
  state.zipIdx.map fun (word, index) =>
    word ^^^ (mixed[index]?).getD 0 ^^^ (mixed[index + 8]?).getD 0

def blake (text : Bytes) : Bytes :=
  let parts := if text.isEmpty then [[]] else blocks 128 text.length text
  let start := wideStart.zipIdx.map fun (word, index) => if index = 0 then word ^^^ 0x01010040 else word
  let state := parts.zipIdx.foldl (fun state (block, index) =>
    blakeBlock state block (128 * index + block.length) (index + 1 == parts.length)) start
  state.flatMap fun word => (bigBytes 8 word.toNat).reverse

/-! ## Spelling -/

/-- Bytes as pairs of hexadecimal digits. -/
def hex (bytes : Bytes) : Bytes :=
  bytes.flatMap fun c => [digit (c.toNat / 16), digit (c.toNat % 16)]
where
  digit (n : Nat) : UInt8 := UInt8.ofNat (if n < 10 then 48 + n else 87 + n)

end ShellCompletion.Digest
