import CompiledViews.Text.Utf8

/-!
# The order of the names in a directory

A directory is read in an order of the file system's own. On ext4 it is that of a hash of the names:
half of MD4, of which a name is mixed in by eight words at a time.
-/

namespace CompiledViews.NameHash

/-- The four words that the words of a name are mixed into. -/
structure Digest where
  first : UInt32
  second : UInt32
  third : UInt32
  fourth : UInt32
deriving DecidableEq, Repr

/-- The digest of nothing. -/
def Digest.empty : Digest := ⟨0x67452301, 0xEFCDAB89, 0x98BADCFE, 0x10325476⟩

/-- One of the rounds in which eight words are mixed in: how three words of the digest become one,
what is added to each word, the places of the words as they are taken, and by how many bits four
sums are rotated in turn. -/
structure Round where
  mix : UInt32 → UInt32 → UInt32 → UInt32
  constant : UInt32
  places : List Nat
  turns : List UInt32

def rounds : List Round := [
  ⟨fun x y z => z ^^^ (x &&& (y ^^^ z)), 0, [0, 1, 2, 3, 4, 5, 6, 7], [3, 7, 11, 19]⟩,
  ⟨fun x y z => (x &&& y) + ((x ^^^ y) &&& z), 0x5A827999, [1, 3, 5, 7, 0, 2, 4, 6],
    [3, 5, 9, 13]⟩,
  ⟨fun x y z => x ^^^ y ^^^ z, 0x6ED9EBA1, [3, 7, 2, 6, 1, 5, 0, 4], [3, 9, 11, 15]⟩]

/-- A word with its bits rotated to the left. -/
def rotate (word turn : UInt32) : UInt32 := (word <<< turn) ||| (word >>> (32 - turn))

/-- The digest after one word of a round. Its words move on by one place. -/
def Digest.stir (round : Round) (digest : Digest) (word turn : UInt32) : Digest where
  first := digest.fourth
  second :=
    rotate (digest.first + round.mix digest.second digest.third digest.fourth + word +
      round.constant) turn
  third := digest.second
  fourth := digest.third

def Digest.runRound (words : List UInt32) (digest : Digest) (round : Round) : Digest :=
  (round.places.zip (round.turns ++ round.turns)).foldl
    (fun digest (place, turn) => digest.stir round (words.getD place 0) turn) digest

def Digest.add (digest other : Digest) : Digest :=
  ⟨digest.first + other.first, digest.second + other.second, digest.third + other.third,
    digest.fourth + other.fourth⟩

/-- The digest after eight more words. -/
def Digest.absorb (digest : Digest) (words : List UInt32) : Digest :=
  digest.add (rounds.foldl (Digest.runRound words) digest)

/-- How many bytes eight words take. -/
def blockBytes : Nat := 32

/-- The first eight words of what is left of a name. Its length fills them up, and a byte counts as
a signed number. -/
def words (bytes : Bytes) : List UInt32 :=
  let length := UInt32.ofNat bytes.length
  let filling := length ||| (length <<< 8) ||| (length <<< 16) ||| (length <<< 24)
  (List.range 8).map fun place =>
    ((bytes.drop (4 * place)).take 4).foldl
      (fun word byte => byte.toInt8.toInt32.toUInt32 + (word <<< 8)) filling

def digest (bytes : Bytes) : Digest :=
  (List.range ((bytes.length + blockBytes - 1) / blockBytes)).foldl
    (fun digest block => digest.absorb (words (bytes.drop (blockBytes * block)))) .empty

/-- The number that stands for the place of a name in its directory. -/
def key (name : Text) : Nat :=
  let digest := digest (Text.utf8 name)
  (digest.second &&& ~~~1).toNat * UInt32.size + digest.third.toNat

/-- Names in the order in which a directory gives them. -/
def arrange (names : List Text) : List Text :=
  names.mergeSort fun first second => decide (key first ≤ key second)

theorem arrange_perm (names : List Text) : (arrange names).Perm names :=
  names.mergeSort_perm _

example : key "l" < key "sub" ∧ key "sub" < key "a" := by decide

end CompiledViews.NameHash
