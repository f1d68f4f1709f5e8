import GoFront.Kind.Basic

/-!
# Sets of kinds

Parsers test the kind at hand against fixed sets. A set is a number whose bit `k.number` tells
whether `k` is a member, so a set has one representation and a test is one look at a bit.
-/

namespace GoFront

/-- A set of kinds, as the number whose set bits are the numbers of its members. -/
structure KindSet where
  /-- The bits. -/
  bits : Nat
  deriving DecidableEq, Repr

namespace KindSet

/-- The set without members. -/
def empty : KindSet := ⟨0⟩

/-- The set with one member. -/
def single (k : Kind) : KindSet := ⟨1 <<< k.number⟩

/-- The members of both sets. -/
def union (s t : KindSet) : KindSet := ⟨s.bits ||| t.bits⟩

/-- The set of the listed kinds. -/
def ofList (ks : List Kind) : KindSet := ks.foldl (fun s k => s.union (single k)) empty

/-- Whether a kind is a member. -/
def contains (s : KindSet) (k : Kind) : Bool := s.bits.testBit k.number

/-- The members by ascending number. -/
def toList (s : KindSet) : List Kind := Kind.all.filter s.contains

@[simp] theorem contains_empty (k : Kind) : empty.contains k = false := by
  simp [contains, empty]

@[simp] theorem contains_union (s t : KindSet) (k : Kind) :
    (s.union t).contains k = (s.contains k || t.contains k) := by
  simp [contains, union]

@[simp] theorem contains_single (j k : Kind) : (single j).contains k = decide (j = k) := by
  have : (decide (j.number = k.number)) = decide (j = k) := by
    rw [Bool.eq_iff_iff]
    simpa using ⟨Kind.number_injective, congrArg _⟩
  simpa [contains, single, Nat.shiftLeft_eq, Nat.testBit_two_pow] using this

/-- The members of `ofList ks` are the kinds listed in `ks`. -/
theorem contains_ofList (ks : List Kind) (k : Kind) : (ofList ks).contains k = ks.contains k := by
  have aux : ∀ s : KindSet,
      (ks.foldl (fun s k => s.union (single k)) s).contains k = (s.contains k || ks.contains k) := by
    induction ks with
    | nil => simp
    | cons j ks ih =>
      intro s
      simp only [List.foldl_cons, ih, contains_union, contains_single, List.contains_cons]
      by_cases h : j = k
      · subst h; simp
      · simp [h, beq_eq_false_iff_ne.2 (Ne.symm h)]
  simpa [ofList] using aux empty

end KindSet

end GoFront
