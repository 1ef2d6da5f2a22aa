import Mathlib.Data.List.AList

namespace SbGateway.Lib

/-!
# First-match decisions and the indexes that compute them

A rule list is read in order and the first entry that matches decides.  Programs rarely scan
the list: they keep, per key, only the *first* decision filed under that key, look up the few
keys a query can hit and take the hit with the least order.  This file proves that the two
readings agree.

* `addKeys` / `indexOf` — an index that keeps the first decision per key, and
  `lookup_indexOf`: looking a key up finds the first entry that carries it;
* `groupOf` — the multi-valued index, where a key keeps all its values;
* `better` — keep the candidate with the smaller order;
* `better_find?` / `foldl_better_find?` — merging first hits by order is the first hit of
  the merged predicate, for one merge and for a whole loop of merges.
-/

/-! ### Keeping the first decision per key -/

section Index

variable {κ D : Type*} [DecidableEq κ]

/-- File `d` under every key of `ks` that has no decision yet. -/
def addKeys (d : D) (ks : List κ) (m : AList (fun _ : κ => D)) : AList (fun _ : κ => D) :=
  ks.foldl (fun m k => if k ∈ m then m else m.insert k d) m

/-- A key keeps the decision it already had; a new key gets `d`. -/
theorem lookup_addKeys (d : D) (ks : List κ) (m : AList (fun _ : κ => D)) (k : κ) :
    (addKeys d ks m).lookup k = (m.lookup k).or (if k ∈ ks then some d else none) := by
  induction ks generalizing m with
  | nil => simp [addKeys]
  | cons x xs ih =>
    have hstep : addKeys d (x :: xs) m = addKeys d xs (if x ∈ m then m else m.insert x d) := rfl
    rw [hstep, ih]
    by_cases hx : x ∈ m
    · rw [if_pos hx]
      by_cases hk : k = x
      · subst hk
        obtain ⟨v, hv⟩ := Option.isSome_iff_exists.mp (AList.lookup_isSome.mpr hx)
        simp [hv]
      · simp [hk]
    · rw [if_neg hx]
      by_cases hk : k = x
      · subst hk
        have hnone : m.lookup k = none := AList.lookup_eq_none.mpr hx
        simp [AList.lookup_insert, hnone]
      · rw [AList.lookup_insert_ne hk]
        simp [hk]

/-- The key `k` is one of `ks`. -/
def hasKey (k : κ) (ks : List κ) : Bool := decide (k ∈ ks)

@[simp] theorem hasKey_iff {k : κ} {ks : List κ} : hasKey k ks = true ↔ k ∈ ks :=
  decide_eq_true_iff

/-- The index of a list of entries: entry by entry, the first decision per key stays. -/
def indexOf {E : Type*} (dec : E → D) (keys : E → List κ) (l : List E) : AList (fun _ : κ => D) :=
  l.foldl (fun m e => addKeys (dec e) (keys e) m) ∅

/-- **Index correctness.** A lookup finds the decision of the first entry carrying the key. -/
theorem lookup_indexOf {E : Type*} (dec : E → D) (keys : E → List κ) (l : List E) (k : κ) :
    (indexOf dec keys l).lookup k = (l.find? (fun e => hasKey k (keys e))).map dec := by
  have key : ∀ m : AList (fun _ : κ => D),
      (l.foldl (fun m e => addKeys (dec e) (keys e) m) m).lookup k
        = (m.lookup k).or ((l.find? (fun e => hasKey k (keys e))).map dec) := by
    induction l with
    | nil => intro m; simp
    | cons e es ih =>
      intro m
      rw [List.foldl_cons, ih, lookup_addKeys, List.find?_cons]
      by_cases hk : k ∈ keys e <;> cases m.lookup k <;> simp [hasKey, hk]
  rw [indexOf, key ∅, AList.lookup_empty, Option.none_or]

/-- A multi-valued index: every value filed under its key, in list order. -/
def groupOf {V : Type*} (l : List (κ × V)) : AList (fun _ : κ => List V) :=
  l.foldl (fun m e => m.insert e.1 ((m.lookup e.1).getD [] ++ [e.2])) ∅

/-- The values filed under `k` are the values of the entries with key `k`, in order. -/
theorem lookup_groupOf {V : Type*} (l : List (κ × V)) (k : κ) :
    ((groupOf l).lookup k).getD [] = (l.filter (fun e => decide (e.1 = k))).map Prod.snd := by
  have key : ∀ m : AList (fun _ : κ => List V),
      ((l.foldl (fun m e => m.insert e.1 ((m.lookup e.1).getD [] ++ [e.2])) m).lookup k).getD []
        = (m.lookup k).getD [] ++ (l.filter (fun e => decide (e.1 = k))).map Prod.snd := by
    induction l with
    | nil => intro m; simp
    | cons e es ih =>
      intro m
      rw [List.foldl_cons, ih]
      by_cases hk : k = e.1
      · subst hk
        simp [AList.lookup_insert]
      · rw [AList.lookup_insert_ne hk]
        simp [Ne.symm hk]
  rw [groupOf, key ∅, AList.lookup_empty, Option.getD_none, List.nil_append]

end Index

/-! ### Merging first hits by order -/

section Better

variable {D E : Type*} (order : D → ℕ)

/-- Keep the decision found so far unless the candidate has a smaller order. -/
def better (found candidate : Option D) : Option D :=
  match found, candidate with
  | none, c => c
  | some d, none => some d
  | some d, some c => if order c < order d then some c else some d

@[simp] theorem better_none_left (c : Option D) : better order none c = c := rfl

@[simp] theorem better_none_right (d : Option D) : better order d none = d := by
  cases d <;> rfl

/-- Merging two first hits of a list whose orders increase is the first hit of either
    predicate. -/
theorem better_find? (dec : E → D) {l : List E}
    (hl : l.Pairwise (fun a b => order (dec a) < order (dec b))) (p q : E → Bool) :
    better order ((l.find? p).map dec) ((l.find? q).map dec)
      = (l.find? (fun e => p e || q e)).map dec := by
  induction l with
  | nil => rfl
  | cons e es ih =>
    obtain ⟨hhead, htail⟩ := List.pairwise_cons.mp hl
    -- an entry found in the tail has a larger order than the head
    have hlate : ∀ r : E → Bool, ∀ e' ∈ es.find? r, ¬ order (dec e') < order (dec e) := by
      intro r e' he'
      exact Nat.not_lt.mpr (Nat.le_of_lt (hhead e' (List.mem_of_find?_eq_some he')))
    rw [List.find?_cons, List.find?_cons, List.find?_cons]
    cases hp : p e <;> cases hq : q e
    · simpa using ih htail
    · cases h : es.find? p with
      | none => simp
      | some e' =>
        have hlt : order (dec e) < order (dec e') := hhead e' (List.mem_of_find?_eq_some h)
        simp [better, hlt]
    · cases h : es.find? q with
      | none => simp
      | some e' => simp [better, hlate q e' h]
    · simp [better]

/-- A loop that merges one lookup per visited key ends with the first entry hit by the start
    predicate or by any of the visited keys. -/
theorem foldl_better_find? {κ : Type*} (dec : E → D) {l : List E}
    (hl : l.Pairwise (fun a b => order (dec a) < order (dec b)))
    (look : κ → Option D) (hit : κ → E → Bool)
    (hlook : ∀ k, look k = (l.find? (hit k)).map dec) (visited : List κ) (p : E → Bool) :
    visited.foldl (fun found k => better order found (look k)) ((l.find? p).map dec)
      = (l.find? (fun e => p e || visited.any (fun k => hit k e))).map dec := by
  induction visited generalizing p with
  | nil => simp
  | cons k ks ih =>
    rw [List.foldl_cons, hlook, better_find? order dec hl, ih]
    simp [Bool.or_assoc]

end Better

end SbGateway.Lib
