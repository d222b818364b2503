/-!
# Remainders of lists

What is left of a list when something has been taken off its front. A `Rest` is strictly shorter
than the list, and a `Tail` may be all of it. Both carry the proof: loops over a list that go on
with a `Rest` end because each round takes something, and no reader needs fuel.
-/

namespace Interleave

variable {α : Type}

/-- A remainder of `s` that is shorter than `s`. -/
structure Rest (s : List α) where
  left : List α
  shorter : left.length < s.length

/-- A remainder of `s` that may be `s` itself. -/
structure Tail (s : List α) where
  left : List α
  notLonger : left.length ≤ s.length

variable {a : α} {s : List α}

namespace Tail

def all (s : List α) : Tail s := ⟨s, Nat.le_refl _⟩

/-- What is left of the list behind an element. -/
def behind (a : α) (t : Tail s) : Rest (a :: s) := ⟨t.left, Nat.lt_succ_of_le t.notLonger⟩

def andTail (t : Tail s) (q : Tail t.left) : Tail s :=
  ⟨q.left, Nat.le_trans q.notLonger t.notLonger⟩

/-- The remainder of a remainder. -/
def andThen (t : Tail s) (q : Rest t.left) : Rest s :=
  ⟨q.left, Nat.lt_of_lt_of_le q.shorter t.notLonger⟩

def drop (n : Nat) (s : List α) : Tail s := ⟨s.drop n, (List.drop_sublist n s).length_le⟩

def dropWhile (p : α → Bool) (s : List α) : Tail s :=
  ⟨s.dropWhile p, (List.dropWhile_sublist p).length_le⟩

/-- The first element of a remainder and what is left behind it. -/
def next? (t : Tail s) : Option (α × Rest s) :=
  match t with
  | ⟨[], _⟩ => none
  | ⟨a :: l, h⟩ => some (a, ⟨l, h⟩)

/-- The remainder, if it is not the whole list. -/
def proper? (t : Tail s) : Option (Rest s) :=
  if h : t.left.length < s.length then some ⟨t.left, h⟩ else none

end Tail

namespace Rest

def toTail (r : Rest s) : Tail s := ⟨r.left, Nat.le_of_lt r.shorter⟩

/-- What is left of the list behind its first element. -/
def ofCons (r : Rest (a :: s)) : Tail s := ⟨r.left, Nat.le_of_lt_succ r.shorter⟩

def behind (a : α) (r : Rest s) : Rest (a :: s) := r.toTail.behind a

def andTail (r : Rest s) (q : Tail r.left) : Rest s :=
  ⟨q.left, Nat.lt_of_le_of_lt q.notLonger r.shorter⟩

def andThen (r : Rest s) (q : Rest r.left) : Rest s := r.andTail q.toTail

/-- The first element of a remainder and what is left behind it. -/
def next? (r : Rest s) : Option (α × Rest s) := r.toTail.next?

end Rest

end Interleave
