import Mathlib.Data.List.Infix

namespace SbGateway.Lib

/-!
# Dotted names and framed texts

A name is a string over any alphabet with a distinguished separator.  `labelWalk` lists the
values a loop takes that starts at the whole name and, while the rest is non-empty and still
has a separator, continues after the next separator.  `mem_labelWalk` says which strings such
a loop meets: the name itself and everything that follows one of its separators.

A text is framed if it can be told where it ends (`Framed`); lists of framed texts are framed.
-/

section Labels

variable {α : Type*} [DecidableEq α] (dot : α)

/-- The non-empty rests after each separator of `s`, from left to right. -/
def restsAfter : List α → List (List α)
  | [] => []
  | c :: cs =>
    if c = dot then (if cs = [] then [] else cs :: restsAfter cs) else restsAfter cs

/-- The values of the walk: `s` and then the rest after each separator, ending at `[]`. -/
def labelWalk (s : List α) : List (List α) := if s = [] then [] else s :: restsAfter dot s

theorem mem_restsAfter (hk : k ≠ []) (s : List α) : k ∈ restsAfter dot s ↔ (dot :: k) <:+ s := by
  induction s with
  | nil => simp [restsAfter]
  | cons c cs ih =>
    rw [restsAfter, List.suffix_cons_iff, ← ih]
    by_cases hc : c = dot
    · subst hc
      by_cases hcs : cs = []
      · subst hcs
        simp [restsAfter, hk]
      · simp [hcs]
    · have hne : ¬ (dot :: k = c :: cs) := fun h => hc (List.cons.inj h).1.symm
      simp [hc, hne]

/-- **The walk meets exactly the name and its dotted suffixes.** -/
theorem mem_labelWalk (hk : k ≠ []) (s : List α) :
    k ∈ labelWalk dot s ↔ k = s ∨ (dot :: k) <:+ s := by
  rw [labelWalk]
  by_cases hs : s = []
  · subst hs
    simp [hk]
  · rw [if_neg hs, List.mem_cons, mem_restsAfter dot hk]

end Labels

section Framed

variable {α β : Type*} {enc : α → List β}

/-- A value and what follows its text can be read back. -/
def Framed (enc : α → List β) : Prop := ∀ ⦃a b x y⦄, enc a ++ x = enc b ++ y → a = b ∧ x = y

/-- The texts of a list, each after a mark, and an end mark. -/
def framedList (mark stop : β) (enc : α → List β) : List α → List β
  | [] => [stop]
  | a :: rest => mark :: enc a ++ framedList mark stop enc rest

/-- A list of framed texts is framed. -/
theorem Framed.list (h : Framed enc) (hmark : mark ≠ stop) :
    Framed (framedList mark stop enc) := by
  intro a
  induction a with
  | nil =>
    rintro (_ | ⟨d, other⟩) x y heq
    · exact ⟨rfl, (List.cons.inj heq).2⟩
    · exact absurd (List.cons.inj heq).1.symm hmark
  | cons c rest ih =>
    rintro (_ | ⟨d, other⟩) x y heq
    · exact absurd (List.cons.inj heq).1 hmark
    · simp only [framedList, List.cons_append, List.append_assoc, List.cons.injEq] at heq
      obtain ⟨rfl, htail⟩ := h heq.2
      obtain ⟨rfl, rfl⟩ := ih htail
      exact ⟨rfl, rfl⟩

end Framed

end SbGateway.Lib
