import Dialogue.Rule
import Dialogue.Word.Hash

/-! # The keyword table

The entries of a script lie in 32 buckets, each in the bucket that the hash of its keyword names, in
the order in which they were inserted. Several entries may have one keyword; the first is found.
The entry to fall back on when no keyword is found stands apart, under a bucket number of its own,
and no keyword leads to it. -/

namespace Dialogue

/-- Names an entry of a table. It goes on naming it while other entries are inserted. -/
structure EntryRef where
  bucket : Nat
  index : Nat
  deriving DecidableEq

structure Table where
  buckets : List (List Entry)
  fallback : Option Entry
  length_buckets : buckets.length = 32

namespace EntryRef

def fallback : EntryRef := ⟨32, 0⟩

def isFallback (r : EntryRef) : Bool := r.bucket == fallback.bucket

end EntryRef

namespace Table

def empty : Table := ⟨List.replicate 32 [], none, rfl⟩

instance : Inhabited Table := ⟨empty⟩

/-- The bucket of a keyword. -/
def bucketOf (w : Word) : Nat := w.hash 5

/-- The entries of a bucket. -/
def bucket (t : Table) (n : Nat) : List Entry := t.buckets[n]?.getD []

/-- Adds an entry behind the others of its bucket. -/
def insert (t : Table) (e : Entry) : EntryRef × Table :=
  let n := bucketOf e.keyword
  (⟨n, (t.bucket n).length⟩,
    { t with
      buckets := t.buckets.modify n (· ++ [e])
      length_buckets := by rw [List.length_modify, t.length_buckets] })

/-- Sets the entry to fall back on, in place of any other. -/
def setFallback (t : Table) (e : Entry) : Table := { t with fallback := some e }

/-- Where the first entry with a keyword is. -/
def locate (t : Table) (w : Word) : Option EntryRef :=
  let n := bucketOf w
  ((t.bucket n).findIdx? fun e => e.keyword ≈ w).map fun i => ⟨n, i⟩

def get? (t : Table) (r : EntryRef) : Option Entry :=
  if r.isFallback then (if r.index = 0 then t.fallback else none) else (t.bucket r.bucket)[r.index]?

/-- The first entry with a keyword. -/
def lookup (t : Table) (w : Word) : Option Entry := (t.locate w).bind t.get?

/-- Changes the entry a reference names, if there is one. -/
def modify (t : Table) (r : EntryRef) (f : Entry → Entry) : Table :=
  if r.isFallback then (if r.index = 0 then { t with fallback := t.fallback.map f } else t)
  else
    { t with
      buckets := t.buckets.modify r.bucket fun es => es.modify r.index f
      length_buckets := by rw [List.length_modify, t.length_buckets] }

/-- The buckets that are not empty, with their numbers. The one that the fallback entry counts as is left out. -/
def occupied (t : Table) : List (Nat × List Entry) :=
  (t.buckets.zipIdx.map fun (es, n) => (n, es)).filter fun b => !b.2.isEmpty

/-- All buckets that are not empty, with their numbers. The fallback entry, if there is one, is a bucket of its
own behind the others. -/
def allOccupied (t : Table) : List (Nat × List Entry) :=
  t.occupied ++ t.fallback.toList.map fun e => (EntryRef.fallback.bucket, [e])

/-- The keywords in the order of their buckets. -/
def keywords (t : Table) : List Word := t.buckets.flatten.map Entry.keyword

/-- The number of entries, the fallback not counted. -/
def size (t : Table) : Nat := t.buckets.flatten.length

end Table

end Dialogue
