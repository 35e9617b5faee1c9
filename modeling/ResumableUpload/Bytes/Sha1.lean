import ResumableUpload.Bytes.Base64

/-!
# SHA-1, in one go and as it comes

`Sha1.hash` is the digest of a message: pad it, cut it into blocks of 64 bytes, and fold the
compression function over them. `Sha1.Rolling` is the same digest for content that arrives piece
by piece: it holds the chaining words, the bytes of the block that is not full yet and the number
of bytes seen. Feeding two pieces one after the other is feeding their concatenation
(`Rolling.feed_append`), so a rolling digest is determined by the bytes it has seen and not by how
they were cut.

A digest travels in a request header as `sha=` and the base64 text of its twenty bytes.
-/

namespace ResumableUpload.Sha1

/-- A digest: twenty bytes. -/
abbrev Digest := Vector UInt8 20

/-- A digest in lower-case hexadecimal. -/
def Digest.hex (digest : Digest) : String := Bytes.hex digest.toList

/-- The value of a `Digest` request header. -/
def Digest.header (digest : Digest) : String := "sha=" ++ Base64.encode digest.toList

/-- The five chaining words. -/
structure Words where
  a : UInt32
  b : UInt32
  c : UInt32
  d : UInt32
  e : UInt32
  deriving DecidableEq, Repr

/-- The chaining words before the first block. -/
def Words.initial : Words := ⟨0x67452301, 0xEFCDAB89, 0x98BADCFE, 0x10325476, 0xC3D2E1F0⟩

/-- Word-wise sum, modulo 2 ^ 32. -/
def Words.add (x y : Words) : Words := ⟨x.a + y.a, x.b + y.b, x.c + y.c, x.d + y.d, x.e + y.e⟩

def rotateLeft (x : UInt32) (n : UInt32) : UInt32 := (x <<< n) ||| (x >>> (32 - n))

/-- The bit-wise function and the constant of round `t`. -/
def mix (t : Nat) (b c d : UInt32) : UInt32 × UInt32 :=
  if t < 20 then ((b &&& c) ||| (b.complement &&& d), 0x5A827999)
  else if t < 40 then (b ^^^ c ^^^ d, 0x6ED9EBA1)
  else if t < 60 then ((b &&& c) ||| (b &&& d) ||| (c &&& d), 0x8F1BBCDC)
  else (b ^^^ c ^^^ d, 0xCA62C1D6)

/-- Round `t`, with the schedule word `w`. -/
def Words.round (s : Words) (t : Nat) (w : UInt32) : Words :=
  let (f, k) := mix t s.b s.c s.d
  ⟨rotateLeft s.a 5 + f + s.e + k + w, s.a, rotateLeft s.b 30, s.c, s.d⟩

/-- The big-endian words of a byte string; a tail of fewer than four bytes is dropped. -/
def bigEndianWords : Bytes → List UInt32
  | a :: b :: c :: d :: rest =>
    ((a.toUInt32 <<< 24) ||| (b.toUInt32 <<< 16) ||| (c.toUInt32 <<< 8) ||| d.toUInt32) ::
      bigEndianWords rest
  | _ => []

/-- The eighty schedule words of a block: its own sixteen, and then each the rotated sum of the
words 3, 8, 14 and 16 places before it. -/
def schedule (block : Bytes) : Array UInt32 :=
  (List.range' 16 64).foldl
    (fun w t =>
      w.push (rotateLeft (w.getD (t - 3) 0 ^^^ w.getD (t - 8) 0 ^^^ w.getD (t - 14) 0 ^^^
        w.getD (t - 16) 0) 1))
    (bigEndianWords block).toArray

/-- The chaining words after one more block. -/
def compress (chain : Words) (block : Bytes) : Words :=
  let w := schedule block
  chain.add ((List.range 80).foldl (fun s t => s.round t (w.getD t 0)) chain)

/-- Byte `i` of the digest that the chaining words stand for: word by word, high byte first. -/
def Words.byte (s : Words) (i : Nat) : UInt8 :=
  let w := match i / 4 with
    | 0 => s.a
    | 1 => s.b
    | 2 => s.c
    | 3 => s.d
    | _ => s.e
  (w >>> (UInt32.ofNat (24 - 8 * (i % 4)))).toUInt8

/-- The digest that the chaining words stand for. -/
def Words.digest (s : Words) : Digest := Vector.ofFn fun i => s.byte i.val

/-- The eight bytes of a bit count, high byte first. -/
def lengthBytes (bits : Nat) : Bytes :=
  (List.range 8).map fun i => UInt8.ofNat (bits >>> (8 * (7 - i)))

/-- What is appended to a message of `count` bytes: a mark, zeros up to eight bytes before the end
of a block, and the length in bits. -/
def padding (count : Nat) : Bytes :=
  0x80 :: (List.replicate ((119 - count % 64) % 64) 0 ++ lengthBytes (8 * count))

/-- A byte string cut into blocks of 64 bytes; what does not fill a block is dropped. -/
def blocks (bytes : Bytes) : List Bytes :=
  if _h : (bytes.take 64).length = 64 then bytes.take 64 :: blocks (bytes.drop 64) else []
termination_by bytes.length
decreasing_by simp at _h ⊢; omega

/-- The SHA-1 digest of a message. -/
def hash (message : Bytes) : Digest :=
  ((blocks (message ++ padding message.length)).foldl compress Words.initial).digest

/-- A digest in the making. `pending` holds the bytes of the unfinished block, last byte first. -/
structure Rolling where
  chain : Words
  pending : Bytes
  count : Nat
  deriving DecidableEq, Repr

namespace Rolling

/-- Nothing seen yet. -/
def empty : Rolling := ⟨Words.initial, [], 0⟩

/-- One more byte; the sixty-fourth of a block compresses it. -/
def push (r : Rolling) (byte : UInt8) : Rolling :=
  if (r.count + 1) % 64 = 0 then
    ⟨compress r.chain (byte :: r.pending).reverse, [], r.count + 1⟩
  else
    ⟨r.chain, byte :: r.pending, r.count + 1⟩

/-- More bytes, in order. -/
def feed (r : Rolling) (bytes : Bytes) : Rolling := bytes.foldl push r

/-- The digest of all bytes seen. -/
def finish (r : Rolling) : Digest := (r.feed (padding r.count)).chain.digest

@[simp] theorem feed_nil (r : Rolling) : r.feed [] = r := rfl

/-- How content is cut does not matter. -/
theorem feed_append (r : Rolling) (xs ys : Bytes) : r.feed (xs ++ ys) = (r.feed xs).feed ys := by
  simp [feed, List.foldl_append]

end Rolling

end ResumableUpload.Sha1
