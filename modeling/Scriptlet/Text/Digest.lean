/-
**A digest of 64 bits for texts.**

* `digest`: the BLAKE2b digest of eight bytes of a text's UTF-8 bytes, without a key, read as a
  number with the first byte as the highest.

Blocks of 128 bytes are mixed into eight words of state, each with the count of bytes so far, the
last one (which may be short, or empty for an empty text) with a mark of its own.
-/

namespace Scriptlet.Text.Digest

/-- The eight words a state starts from. -/
def initial : Vector UInt64 8 :=
  #v[0x6a09e667f3bcc908, 0xbb67ae8584caa73b, 0x3c6ef372fe94f82b, 0xa54ff53a5f1d36f1,
    0x510e527fade682d1, 0x9b05688c2b3e6c1f, 0x1f83d9abfb41bd6b, 0x5be0cd19137e2179]

/-- The order in which each round takes the words of a block. -/
def schedule : List (Vector (Fin 16) 16) :=
  [#v[0, 1, 2, 3, 4, 5, 6, 7, 8, 9, 10, 11, 12, 13, 14, 15],
    #v[14, 10, 4, 8, 9, 15, 13, 6, 1, 12, 0, 2, 11, 7, 5, 3],
    #v[11, 8, 12, 0, 5, 2, 15, 13, 10, 14, 3, 6, 7, 1, 9, 4],
    #v[7, 9, 3, 1, 13, 12, 11, 14, 2, 6, 5, 10, 4, 0, 15, 8],
    #v[9, 0, 5, 7, 2, 4, 10, 15, 14, 1, 11, 12, 6, 8, 3, 13],
    #v[2, 12, 6, 10, 0, 11, 8, 3, 4, 13, 7, 5, 15, 14, 1, 9],
    #v[12, 5, 1, 15, 14, 13, 4, 10, 0, 7, 6, 3, 9, 2, 8, 11],
    #v[13, 11, 7, 14, 12, 1, 3, 9, 5, 0, 15, 4, 8, 6, 2, 10],
    #v[6, 15, 14, 9, 11, 3, 0, 8, 12, 2, 13, 7, 1, 4, 10, 5],
    #v[10, 2, 8, 4, 7, 6, 1, 5, 15, 11, 9, 14, 3, 12, 13, 0],
    #v[0, 1, 2, 3, 4, 5, 6, 7, 8, 9, 10, 11, 12, 13, 14, 15],
    #v[14, 10, 4, 8, 9, 15, 13, 6, 1, 12, 0, 2, 11, 7, 5, 3]]

/-- The four cells of each mixing step of a round: columns first, then diagonals. -/
def cells : List (Fin 16 × Fin 16 × Fin 16 × Fin 16 × Fin 16) :=
  [(0, 4, 8, 12, 0), (1, 5, 9, 13, 2), (2, 6, 10, 14, 4), (3, 7, 11, 15, 6),
    (0, 5, 10, 15, 8), (1, 6, 11, 12, 10), (2, 7, 8, 13, 12), (3, 4, 9, 14, 14)]

/-- A word turned to the right. -/
def rotate (word : UInt64) (places : UInt64) : UInt64 :=
  (word >>> places) ||| (word <<< (64 - places))

/-- Four cells mixed with two words of the block. -/
def mix (state : Vector UInt64 16) (a b c d : Fin 16) (x y : UInt64) : Vector UInt64 16 :=
  let a₁ := state[a] + state[b] + x
  let d₁ := rotate (state[d] ^^^ a₁) 32
  let c₁ := state[c] + d₁
  let b₁ := rotate (state[b] ^^^ c₁) 24
  let a₂ := a₁ + b₁ + y
  let d₂ := rotate (d₁ ^^^ a₂) 16
  let c₂ := c₁ + d₂
  let b₂ := rotate (b₁ ^^^ c₂) 63
  (((state.set a a₂).set d d₂).set c c₂).set b b₂

/-- One round over a block. -/
def round (block : Vector UInt64 16) (state : Vector UInt64 16) (order : Vector (Fin 16) 16) :
    Vector UInt64 16 :=
  cells.foldl (fun state (a, b, c, d, at_) =>
    mix state a b c d block[order[at_]] block[order[at_ + 1]]) state

/-- A state after a block; `count` is the number of bytes up to its end. -/
def compress (state : Vector UInt64 8) (block : Vector UInt64 16) (count : Nat) (last : Bool) :
    Vector UInt64 8 :=
  let upper := ((initial.set 4 (initial[4] ^^^ UInt64.ofNat count)).set 5
    (initial[5] ^^^ UInt64.ofNat (count / UInt64.size)))
  let upper := if last then upper.set 6 (~~~ upper[6]) else upper
  let mixed := schedule.foldl (round block) (state ++ upper)
  Vector.ofFn fun i : Fin 8 => state[i] ^^^ mixed[i.val] ^^^ mixed[i.val + 8]

/-- Eight bytes as a word, the first byte lowest; a missing byte is zero. -/
def word (bytes : List UInt8) : UInt64 :=
  (bytes.take 8).foldr (fun byte high => (high <<< 8) ||| byte.toUInt64) 0

/-- The words of a block. -/
def block (bytes : List UInt8) : Vector UInt64 16 :=
  Vector.ofFn fun i : Fin 16 => word (bytes.drop (8 * i.val))

/-- A state after `full` whole blocks and a last one. -/
def absorb (full count : Nat) (state : Vector UInt64 8) (bytes : List UInt8) : Vector UInt64 8 :=
  match full with
  | 0 => compress state (block bytes) (count + bytes.length) true
  | more + 1 =>
    absorb more (count + 128) (compress state (block bytes) (count + 128) false) (bytes.drop 128)

/-- The word with the bytes in the opposite order. -/
def reversed (word : UInt64) : UInt64 :=
  (List.range 8).foldl (fun result place =>
    (result <<< 8) ||| ((word >>> UInt64.ofNat (8 * place)) &&& 0xff)) 0

end Digest

/-- The digest of a text. -/
def digest (text : String) : UInt64 :=
  let bytes := text.toList.flatMap String.utf8EncodeChar
  let start := Digest.initial.set 0 (Digest.initial[0] ^^^ 0x01010008)
  Digest.reversed (Digest.absorb ((bytes.length - 1) / 128) 0 start bytes)[0]

end Scriptlet.Text
