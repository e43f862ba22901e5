import RouteImpact.Text.Quoted

namespace RouteImpact.Digest

/-!
# MD5 digests

The digest by which a changed file is told from an unchanged one, as 32
hexadecimal digits.
-/

/-- The constant added in each step. -/
def md5Constants : Array UInt32 := #[
  0xd76aa478, 0xe8c7b756, 0x242070db, 0xc1bdceee, 0xf57c0faf, 0x4787c62a, 0xa8304613,
  0xfd469501, 0x698098d8, 0x8b44f7af, 0xffff5bb1, 0x895cd7be, 0x6b901122, 0xfd987193,
  0xa679438e, 0x49b40821, 0xf61e2562, 0xc040b340, 0x265e5a51, 0xe9b6c7aa, 0xd62f105d,
  0x2441453, 0xd8a1e681, 0xe7d3fbc8, 0x21e1cde6, 0xc33707d6, 0xf4d50d87, 0x455a14ed,
  0xa9e3e905, 0xfcefa3f8, 0x676f02d9, 0x8d2a4c8a, 0xfffa3942, 0x8771f681, 0x6d9d6122,
  0xfde5380c, 0xa4beea44, 0x4bdecfa9, 0xf6bb4b60, 0xbebfbc70, 0x289b7ec6, 0xeaa127fa,
  0xd4ef3085, 0x4881d05, 0xd9d4d039, 0xe6db99e5, 0x1fa27cf8, 0xc4ac5665, 0xf4292244,
  0x432aff97, 0xab9423a7, 0xfc93a039, 0x655b59c3, 0x8f0ccc92, 0xffeff47d, 0x85845dd1,
  0x6fa87e4f, 0xfe2ce6e0, 0xa3014314, 0x4e0811a1, 0xf7537e82, 0xbd3af235, 0x2ad7d2bb,
  0xeb86d391]

/-- The rotation of each step. -/
def md5Rotations : Array UInt32 := #[
  7, 12, 17, 22, 7, 12, 17, 22, 7, 12, 17, 22, 7, 12, 17, 22, 5, 9, 14, 20, 5, 9, 14, 20, 5, 9,
  14, 20, 5, 9, 14, 20, 4, 11, 16, 23, 4, 11, 16, 23, 4, 11, 16, 23, 4, 11, 16, 23, 6, 10, 15,
  21, 6, 10, 15, 21, 6, 10, 15, 21, 6, 10, 15, 21]

/-- The chaining value between blocks. -/
structure Md5State where
  a : UInt32 := 0x67452301
  b : UInt32 := 0xefcdab89
  c : UInt32 := 0x98badcfe
  d : UInt32 := 0x10325476

def rotateLeft (x n : UInt32) : UInt32 := (x <<< n) ||| (x >>> (32 - n))

/-- The little-endian word at byte `i`. -/
def wordAt (bytes : ByteArray) (i : Nat) : UInt32 :=
  let byte (k : Nat) : UInt32 := if h : i + k < bytes.size then bytes[i + k].toUInt32 else 0
  byte 0 ||| (byte 1 <<< 8) ||| (byte 2 <<< 16) ||| (byte 3 <<< 24)

/-- The steps from `64 - n` on over the block that starts at `start`. -/
def md5Steps (bytes : ByteArray) (start : Nat) :
    Nat → UInt32 → UInt32 → UInt32 → UInt32 → Md5State
  | 0, a, b, c, d => ⟨a, b, c, d⟩
  | n + 1, a, b, c, d =>
    let i := 63 - n
    let (f, g) : UInt32 × Nat :=
      if i < 16 then ((b &&& c) ||| (~~~b &&& d), i)
      else if i < 32 then ((d &&& b) ||| (~~~d &&& c), (5 * i + 1) % 16)
      else if i < 48 then (b ^^^ c ^^^ d, (3 * i + 5) % 16)
      else (c ^^^ (b ||| ~~~d), (7 * i) % 16)
    let sum := a + f + md5Constants.getD i 0 + wordAt bytes (start + 4 * g)
    md5Steps bytes start n d (b + rotateLeft sum (md5Rotations.getD i 0)) b c

/-- Folds the blocks from byte `start` on into the chaining value. -/
def md5Blocks (bytes : ByteArray) : Nat → Nat → Md5State → Md5State
  | 0, _, s => s
  | n + 1, start, s =>
    let t := md5Steps bytes start 64 s.a s.b s.c s.d
    md5Blocks bytes n (start + 64) ⟨s.a + t.a, s.b + t.b, s.c + t.c, s.d + t.d⟩

/-- The message with a one bit, zeros and its length in bits, a multiple of 64
bytes long. -/
def padded (bytes : ByteArray) : ByteArray :=
  let zeros := (119 - bytes.size % 64) % 64
  let bits := 8 * bytes.size
  let length := (List.range 8).map fun k => (bits / Nat.pow 256 k % 256).toUInt8
  let tail := (0x80 : UInt8) :: List.replicate zeros 0 ++ length
  tail.foldl ByteArray.push bytes

/-- The hexadecimal digits of a word, low byte first. -/
def wordHex (x : UInt32) : List Char :=
  ([0, 8, 16, 24] : List UInt32).flatMap fun n => Text.hexDigits 2 ((x >>> n) &&& 255).toNat

/-- The digest of bytes. -/
def md5 (bytes : ByteArray) : String :=
  let message := padded bytes
  let s := md5Blocks message (message.size / 64) 0 {}
  String.ofList ([s.a, s.b, s.c, s.d].flatMap wordHex)

/-- The digest of a text, by its UTF-8 bytes. -/
def contentHash (text : String) : String := md5 text.toUTF8

end RouteImpact.Digest
