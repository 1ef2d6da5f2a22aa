import SbGateway.Lib.NetIP

namespace SbGateway.Lib

/-!
# The text of an address can be read back

`parsePrefix_text`: reading the text of a prefix gives the prefix.  The parts are the digits of a
number (`readNumber_toDigits`), the fields of a joined text (`fieldsOf_joinTexts`), the dotted
IPv4 address (`readIPv4_ipv4Text`) and the groups of an IPv6 address on both sides of the longest
run of zeros (`readIPv6_groupsForm`).
-/

/-! ### Numbers -/

theorem digitValue_digitChar (h : d < 16) : digitValue d.digitChar = some d := by
  have hall : ∀ i < 16, digitValue (Nat.digitChar i) = some i := by decide
  exact hall d h

section Digits

variable {base n : ℕ} {c sep : Char} (hone : 1 < base) (hbase : base ≤ 16)

include hone hbase

/-- Reading the digits of a number gives the number. -/
theorem readNumber_toDigits (n : ℕ) :
    readNumber base (Nat.toDigits base n) = some n := by
  have hfold : ∀ n, (Nat.toDigits base n).foldlM (fun n c => do
      let d ← digitValue c
      if d < base then some (n * base + d) else none) 0 = some n := by
    intro n
    induction n using Nat.strongRecOn with
    | ind n ih =>
      rw [Nat.toDigits_eq_if hone]
      split
      · rename_i hlt
        rw [List.foldlM_cons, digitValue_digitChar (by omega)]
        simp [hlt]
      · rename_i hge
        have hsmaller : n / base < n := Nat.div_lt_self (by omega) hone
        rw [List.foldlM_append, ih _ hsmaller]
        have hmod : n % base < base := Nat.mod_lt _ (by omega)
        simp only [Option.bind_eq_bind, Option.bind_some]
        rw [List.foldlM_cons, digitValue_digitChar (by omega)]
        simp [hmod, Nat.div_add_mod']
  unfold readNumber
  rw [if_neg Nat.toDigits_ne_nil]
  exact hfold n

/-- The first digit of a positive number is not zero. -/
theorem head?_toDigits_ne_zero (hn : n ≠ 0) :
    (Nat.toDigits base n).head? ≠ some '0' := by
  induction n using Nat.strongRecOn with
  | ind n ih =>
    rw [Nat.toDigits_eq_if hone]
    split
    · rename_i hlt
      have hall : ∀ i < 16, i ≠ 0 → Nat.digitChar i ≠ '0' := by decide
      simpa using hall n (by omega) hn
    · rename_i hge
      have hpos : n / base ≠ 0 := by
        rw [Nat.div_ne_zero_iff]
        omega
      have hrest := ih _ (Nat.div_lt_self (by omega) hone) hpos
      cases hdigits : Nat.toDigits base (n / base) with
      | nil => exact absurd hdigits Nat.toDigits_ne_nil
      | cons c cs =>
        rw [hdigits] at hrest
        simpa using hrest

/-- A number has no leading zeros. -/
theorem toDigits_no_leading_zero :
    (Nat.toDigits base n).length ≤ 1 ∨ (Nat.toDigits base n).head? ≠ some '0' := by
  by_cases hn : n = 0
  · left
    rw [hn, Nat.toDigits_zero]
    rfl
  · exact .inr (head?_toDigits_ne_zero hone hbase hn)

/-- The characters of a number are digits. -/
theorem digitValue_isSome_of_mem (hc : c ∈ Nat.toDigits base n) : (digitValue c).isSome := by
  induction n using Nat.strongRecOn with
  | ind n ih =>
    rw [Nat.toDigits_eq_if hone] at hc
    split at hc
    · rename_i hlt
      rw [List.mem_singleton] at hc
      rw [hc, digitValue_digitChar (by omega)]
      rfl
    · rename_i hge
      rcases List.mem_append.mp hc with hc | hc
      · exact ih _ (Nat.div_lt_self (by omega) hone) hc
      · rw [List.mem_singleton] at hc
        rw [hc, digitValue_digitChar (lt_of_lt_of_le (Nat.mod_lt _ (by omega)) hbase)]
        rfl

/-- A separator is no digit. -/
theorem notMem_toDigits (hsep : digitValue sep = none) : sep ∉ Nat.toDigits base n := by
  intro hmem
  have h := digitValue_isSome_of_mem hone hbase hmem
  rw [hsep] at h
  cases h

end Digits

/-! ### Fields -/

variable {c sep : Char}

theorem fieldsOf_ne_nil (sep : Char) (text : List Char) : fieldsOf sep text ≠ [] := by
  cases text with
  | nil => exact List.cons_ne_nil _ _
  | cons c text =>
    rw [fieldsOf]
    split
    · exact List.cons_ne_nil _ _
    · split <;> exact List.cons_ne_nil _ _

/-- A separator separates. -/
theorem fieldsOf_append_sep (sep : Char) (text rest : List Char) :
    fieldsOf sep (text ++ sep :: rest) = fieldsOf sep text ++ fieldsOf sep rest := by
  induction text with
  | nil =>
    show fieldsOf sep (sep :: rest) = [[]] ++ fieldsOf sep rest
    rw [fieldsOf, if_pos rfl, List.singleton_append]
  | cons c text ih =>
    show fieldsOf sep (c :: (text ++ sep :: rest)) = _
    rw [fieldsOf, fieldsOf, ih]
    by_cases hc : c = sep
    · rw [if_pos hc, if_pos hc, List.cons_append]
    · rw [if_neg hc, if_neg hc]
      cases htext : fieldsOf sep text with
      | nil => exact absurd htext (fieldsOf_ne_nil sep text)
      | cons first more => rfl

theorem fieldsOf_eq_singleton {cs : List Char} (h : sep ∉ cs) : fieldsOf sep cs = [cs] := by
  induction cs with
  | nil => rfl
  | cons c cs ih =>
    rw [List.mem_cons, not_or] at h
    unfold fieldsOf
    rw [if_neg (Ne.symm h.1), ih h.2]

theorem fieldsOf_append {cs : List Char} (h : sep ∉ cs) (rest : List Char) :
    fieldsOf sep (cs ++ sep :: rest) = cs :: fieldsOf sep rest := by
  rw [fieldsOf_append_sep, fieldsOf_eq_singleton h, List.singleton_append]

/-- The fields of a joined text are its parts. -/
theorem fieldsOf_joinTexts (hne : parts ≠ []) (h : ∀ part ∈ parts, sep ∉ part.toList) :
    fieldsOf sep (joinTexts (String.ofList [sep]) parts).toList = parts.map String.toList := by
  induction parts with
  | nil => exact absurd rfl hne
  | cons part rest ih =>
    cases rest with
    | nil => exact fieldsOf_eq_singleton (h part (List.mem_cons_self ..))
    | cons next more =>
      have hrest := ih (List.cons_ne_nil _ _) fun p hp => h p (List.mem_cons_of_mem _ hp)
      unfold joinTexts
      rw [String.toList_append, String.toList_append, String.toList_ofList, List.append_assoc,
        List.singleton_append, fieldsOf_append (h part (List.mem_cons_self ..)), hrest]
      rfl

/-- The characters of a joined text. -/
theorem mem_joinTexts {sep : String} {parts : List String} (h : c ∈ (joinTexts sep parts).toList) :
    c ∈ sep.toList ∨ ∃ part ∈ parts, c ∈ part.toList := by
  induction parts with
  | nil => simp [joinTexts] at h
  | cons part rest ih =>
    cases rest with
    | nil => exact .inr ⟨part, List.mem_cons_self .., h⟩
    | cons next more =>
      unfold joinTexts at h
      rw [String.toList_append, String.toList_append, List.mem_append, List.mem_append] at h
      rcases h with (h | h) | h
      · exact .inr ⟨part, List.mem_cons_self .., h⟩
      · exact .inl h
      · rcases ih h with h | ⟨p, hp, hc⟩
        · exact .inl h
        · exact .inr ⟨p, List.mem_cons_of_mem _ hp, hc⟩

/-! ### IPv4 -/

theorem toList_toString (n : ℕ) : (toString n).toList = Nat.toDigits 10 n := Nat.toList_repr

variable {n : ℕ}

/-- An octet is read back. -/
theorem readOctet_toString (h : n < 256) : readOctet (toString n).toList = some n := by
  have hzero : (Nat.toDigits 10 n).length ≤ 1 ∨ (Nat.toDigits 10 n).head? ≠ some '0' :=
    toDigits_no_leading_zero (by omega) (by omega)
  unfold readOctet
  rw [toList_toString, readNumber_toDigits (by omega) (by omega)]
  show (if n ≤ 255 ∧ _ then some n else none) = some n
  rw [if_pos ⟨by omega, hzero⟩]

/-- A dotted address is made of dots and digits. -/
theorem mem_ipv4Text (h : c ∈ (ipv4Text n).toList) : c = '.' ∨ (digitValue c).isSome := by
  rcases mem_joinTexts h with h | ⟨part, hpart, hc⟩
  · left
    simpa using h
  · right
    simp only [List.mem_cons, List.not_mem_nil, or_false] at hpart
    rcases hpart with rfl | rfl | rfl | rfl <;> rw [toList_toString] at hc <;>
      exact digitValue_isSome_of_mem (by omega) (by omega) hc

theorem dot_mem_ipv4Text (n : ℕ) : '.' ∈ (ipv4Text n).toList := by
  simp [ipv4Text, joinTexts]

/-- Reading a dotted address gives its number. -/
theorem readIPv4_ipv4Text (h : n < 2 ^ 32) : readIPv4 (ipv4Text n).toList = some n := by
  have hfields : fieldsOf '.' (ipv4Text n).toList =
      [(toString (n / 2 ^ 24 % 256)).toList, (toString (n / 2 ^ 16 % 256)).toList,
        (toString (n / 2 ^ 8 % 256)).toList, (toString (n % 256)).toList] := by
    unfold ipv4Text
    refine fieldsOf_joinTexts (List.cons_ne_nil _ _) ?_
    intro part hpart
    simp only [List.mem_cons, List.not_mem_nil, or_false] at hpart
    rcases hpart with rfl | rfl | rfl | rfl <;>
      · rw [toList_toString]
        exact notMem_toDigits (by omega) (by omega) (by decide)
  have hoctet : ∀ m, readOctet (toString (m % 256)).toList = some (m % 256) :=
    fun m => readOctet_toString (Nat.mod_lt _ (by omega))
  unfold readIPv4
  rw [hfields]
  simp only [List.mapM_cons, List.mapM_nil, hoctet]
  show some (((n / 2 ^ 24 % 256 * 256 + n / 2 ^ 16 % 256) * 256 + n / 2 ^ 8 % 256) * 256 +
    n % 256) = some n
  congr 1
  omega

/-! ### Groups -/

theorem readGroup_toDigits (h : g < 65536) : readGroup (Nat.toDigits 16 g) = some g := by
  unfold readGroup
  rw [if_pos ((Nat.length_toDigits_le_iff (by omega) (by omega)).mpr (by omega))]
  exact readNumber_toDigits (by omega) (by omega) g

variable {groups : List ℕ}

theorem readGroups_toDigits (h : ∀ g ∈ groups, g < 65536) :
    readGroups (groups.map (Nat.toDigits 16)) = some groups := by
  induction groups with
  | nil => rfl
  | cons g rest ih =>
    have hg := readGroup_toDigits (h g (List.mem_cons_self ..))
    have hrest := ih fun x hx => h x (List.mem_cons_of_mem _ hx)
    cases rest with
    | nil =>
      show readGroups [Nat.toDigits 16 g] = some [g]
      unfold readGroups
      rw [if_neg (notMem_toDigits (by omega) (by omega) (by decide)), hg]
      rfl
    | cons next more =>
      show readGroups (Nat.toDigits 16 g :: Nat.toDigits 16 next :: more.map (Nat.toDigits 16)) = _
      unfold readGroups
      rw [hg]
      change (readGroups ((next :: more).map (Nat.toDigits 16))).bind _ = _
      rw [hrest]
      rfl

theorem fieldsOf_groupsText (hne : groups ≠ []) :
    fieldsOf ':' (groupsText groups).toList = groups.map (Nat.toDigits 16) := by
  let parts := groups.map fun g => String.ofList (Nat.toDigits 16 g)
  have hparts : parts ≠ [] := by simpa [parts] using hne
  have hsep : ∀ part ∈ parts, ':' ∉ part.toList := by
    intro part hpart
    obtain ⟨g, _, rfl⟩ := List.mem_map.mp hpart
    rw [String.toList_ofList]
    exact notMem_toDigits (by omega) (by omega) (by decide)
  have h := fieldsOf_joinTexts hparts hsep
  simpa [parts, groupsText, Function.comp_def] using h

theorem groupsText_ne_nil (hne : groups ≠ []) : (groupsText groups).toList ≠ [] := by
  intro h
  have hfields := fieldsOf_groupsText hne
  rw [h] at hfields
  cases groups with
  | nil => exact hne rfl
  | cons g rest =>
    have hhead : Nat.toDigits 16 g = [] := (List.cons.inj hfields).1.symm
    exact Nat.toDigits_ne_nil hhead

/-- Reading the groups of one side gives the groups. -/
theorem readSide_groupsText (h : ∀ g ∈ groups, g < 65536) :
    readSide (groupsText groups).toList = some groups := by
  by_cases hne : groups = []
  · rw [hne]
    rfl
  · unfold readSide
    rw [if_neg (groupsText_ne_nil hne), fieldsOf_groupsText hne]
    exact readGroups_toDigits h

theorem mem_groupsText (h : c ∈ (groupsText groups).toList) : c = ':' ∨ (digitValue c).isSome := by
  rcases mem_joinTexts h with h | ⟨part, hpart, hc⟩
  · left
    simpa using h
  · right
    obtain ⟨g, _, rfl⟩ := List.mem_map.mp hpart
    rw [String.toList_ofList] at hc
    exact digitValue_isSome_of_mem (by omega) (by omega) hc

/-! ### The double colon -/

/-- A text that is cut at its first double colon, with more text before it. -/
def prepend (before : List Char) (cut : List Char × List Char) : List Char × List Char :=
  (before ++ cut.1, cut.2)

theorem map_prepend_nil (cut : Option (List Char × List Char)) : cut.map (prepend []) = cut := by
  cases cut <;> rfl

theorem map_prepend_prepend (xs ys : List Char) (cut : Option (List Char × List Char)) :
    (cut.map (prepend ys)).map (prepend xs) = cut.map (prepend (xs ++ ys)) := by
  cases cut <;> simp [prepend]

theorem splitEllipsis_cons (h : c ≠ ':') (cs : List Char) :
    splitEllipsis (c :: cs) = (splitEllipsis cs).map (prepend [c]) := by
  rw [splitEllipsis.eq_def]
  split
  · next heq => exact absurd (List.cons.inj heq).1 h
  · next heq =>
    obtain ⟨rfl, rfl⟩ := List.cons.inj heq
    rfl
  · next heq => cases heq

theorem splitEllipsis_single (h : c ≠ ':') (cs : List Char) :
    splitEllipsis (':' :: c :: cs) = (splitEllipsis (c :: cs)).map (prepend [':']) := by
  rw [splitEllipsis.eq_def]
  split
  · next heq => exact absurd (List.cons.inj (List.cons.inj heq).2).1 h
  · next heq =>
    obtain ⟨rfl, rfl⟩ := List.cons.inj heq
    rfl
  · next heq => cases heq

theorem splitEllipsis_append (h : ':' ∉ xs) (ys : List Char) :
    splitEllipsis (xs ++ ys) = (splitEllipsis ys).map (prepend xs) := by
  induction xs with
  | nil => rw [List.nil_append, map_prepend_nil]
  | cons c cs ih =>
    rw [List.mem_cons, not_or] at h
    rw [List.cons_append, splitEllipsis_cons (Ne.symm h.1), ih h.2, map_prepend_prepend]
    rfl

theorem groupsText_cons_cons (g next : ℕ) (later : List ℕ) :
    (groupsText (g :: next :: later)).toList =
      Nat.toDigits 16 g ++ ':' :: (groupsText (next :: later)).toList := by
  simp [groupsText, joinTexts]

theorem groupsText_singleton (g : ℕ) : (groupsText [g]).toList = Nat.toDigits 16 g :=
  String.toList_ofList

/-- A text of groups starts with a digit. -/
theorem groupsText_eq_cons (g : ℕ) (more : List ℕ) :
    ∃ c cs, (groupsText (g :: more)).toList = c :: cs ∧ c ≠ ':' := by
  obtain ⟨c, digits, hdigits⟩ := List.exists_cons_of_ne_nil (Nat.toDigits_ne_nil (b := 16) (n := g))
  have hc : c ≠ ':' := by
    intro heq
    have hmem : ':' ∈ Nat.toDigits 16 g := by simp [hdigits, heq]
    exact notMem_toDigits (by omega) (by omega) (by decide) hmem
  cases more with
  | nil => exact ⟨c, digits, by rw [groupsText_singleton, hdigits], hc⟩
  | cons next later =>
    refine ⟨c, digits ++ ':' :: (groupsText (next :: later)).toList, ?_, hc⟩
    rw [groupsText_cons_cons, hdigits]
    rfl

/-- Groups contain no double colon: the first one is found behind them. -/
theorem splitEllipsis_groupsText (groups : List ℕ) (rest : List Char) :
    splitEllipsis ((groupsText groups).toList ++ rest) =
      (splitEllipsis rest).map (prepend (groupsText groups).toList) := by
  induction groups with
  | nil => exact (map_prepend_nil _).symm
  | cons g more ih =>
    have hg : ':' ∉ Nat.toDigits 16 g := notMem_toDigits (by omega) (by omega) (by decide)
    cases more with
    | nil => rw [groupsText_singleton, splitEllipsis_append hg]
    | cons next later =>
      -- behind the single colon stands a digit
      obtain ⟨c, cs, hcs, hc⟩ := groupsText_eq_cons next later
      rw [hcs, List.cons_append] at ih
      rw [groupsText_cons_cons, List.append_assoc, splitEllipsis_append hg, List.cons_append, hcs,
        List.cons_append, splitEllipsis_single hc, ih, map_prepend_prepend, map_prepend_prepend,
        List.append_assoc]
      rfl

/-! ### Runs of zeros -/

/-- A run of at least two zero groups. -/
def IsZeroRun (groups : List ℕ) (run : ℕ × ℕ) : Prop :=
  run.1 + 2 ≤ run.2 ∧ run.2 ≤ groups.length ∧
    groups = groups.take run.1 ++ List.replicate (run.2 - run.1) 0 ++ groups.drop run.2

theorem isZeroRun_takeWhile (hi : i ≤ groups.length)
    (h : 2 ≤ ((groups.drop i).takeWhile (fun g => g = 0)).length) :
    IsZeroRun groups (i, i + ((groups.drop i).takeWhile (fun g => g = 0)).length) := by
  set zeros := (groups.drop i).takeWhile (fun g => g = 0) with hzeros
  have hreplicate : zeros = List.replicate zeros.length 0 := by
    rw [List.eq_replicate_iff]
    refine ⟨rfl, fun g hg => ?_⟩
    have hmem := List.mem_takeWhile_imp (hzeros ▸ hg)
    simpa using hmem
  have hdrop : groups.drop i = zeros ++ groups.drop (i + zeros.length) := by
    have hsplit := List.takeWhile_append_dropWhile (p := fun g : ℕ => decide (g = 0))
      (l := groups.drop i)
    have hrest : (groups.drop i).drop zeros.length =
      (groups.drop i).dropWhile (fun g => g = 0) := by
      conv_lhs => rw [← hsplit]
      rw [← hzeros, List.drop_left]
    rw [← List.drop_drop, hrest]
    exact hsplit.symm
  have hlength : zeros.length ≤ groups.length - i := by
    rw [← List.length_drop, hdrop, List.length_append]
    omega
  refine ⟨by simpa using h, by simp only; omega, ?_⟩
  show groups = groups.take i ++ List.replicate (i + zeros.length - i) 0 ++ _
  rw [Nat.add_sub_cancel_left, ← hreplicate, List.append_assoc, ← hdrop, List.take_append_drop]

theorem zeroRun_spec (h : zeroRun groups = some run) : IsZeroRun groups run := by
  -- every candidate that the fold keeps is a run
  have hkept : ∀ best, zeroRun groups = some best → IsZeroRun groups best := by
    unfold zeroRun
    refine List.foldlRecOn (motive := fun best => ∀ run, best = some run → IsZeroRun groups run)
      _ _ (by simp) ?_
    intro best hbest i hi run hrun
    have hle : i ≤ groups.length := (List.mem_range.mp hi).le
    cases best with
    | none =>
      simp only at hrun
      split at hrun
      · next hlong =>
        cases hrun
        exact isZeroRun_takeWhile hle hlong
      · cases hrun
    | some best =>
      obtain ⟨first, last⟩ := best
      have hold := hbest _ rfl
      simp only at hrun
      split at hrun
      · next hlonger =>
        cases hrun
        have htwo : first + 2 ≤ last := hold.1
        exact isZeroRun_takeWhile hle (by omega)
      · cases hrun
        exact hold
  exact hkept run h

/-! ### IPv6 addresses -/

/-- The eight groups of an IPv6 address. -/
def groupsOf (n : ℕ) : List ℕ := (List.range 8).map fun i => n / 2 ^ (112 - 16 * i) % 65536

theorem length_groupsOf (n : ℕ) : (groupsOf n).length = 8 := by simp [groupsOf]

theorem lt_of_mem_groupsOf {n g : ℕ} (h : g ∈ groupsOf n) : g < 65536 := by
  obtain ⟨i, _, rfl⟩ := List.mem_map.mp h
  exact Nat.mod_lt _ (by omega)

theorem foldl_groupsOf (h : n < 2 ^ 128) : (groupsOf n).foldl (fun n g => n * 65536 + g) 0 = n := by
  simp only [groupsOf, List.range_succ, List.range_zero, List.nil_append,
    List.map_cons, List.map_nil, List.cons_append, List.foldl_cons, List.foldl_nil]
  norm_num
  omega

/-- The text of an address that is no mapped IPv4 address. -/
def groupsForm (groups : List ℕ) : String :=
  match zeroRun groups with
  | none => groupsText groups
  | some (first, last) => groupsText (groups.take first) ++ "::" ++ groupsText (groups.drop last)

theorem readIPv6_groupsForm (hlength : groups.length = 8) (hlt : ∀ g ∈ groups, g < 65536) :
    readIPv6 (groupsForm groups).toList = some groups := by
  unfold groupsForm
  split
  · have hsplit := splitEllipsis_groupsText groups []
    rw [List.append_nil] at hsplit
    unfold readIPv6
    rw [hsplit]
    simp [splitEllipsis, readSide_groupsText hlt, hlength]
  · next first last hrun =>
    obtain ⟨htwo, hle, hgroups⟩ := zeroRun_spec hrun
    simp only at htwo hle hgroups
    have hsplit := splitEllipsis_groupsText (groups.take first)
      (':' :: ':' :: (groupsText (groups.drop last)).toList)
    have htext : (groupsText (groups.take first) ++ "::" ++
        groupsText (groups.drop last)).toList = (groupsText (groups.take first)).toList ++
          ':' :: ':' :: (groupsText (groups.drop last)).toList := by
      simp
    have hdot : '.' ∉ (groupsText (groups.take first)).toList := by
      intro h
      rcases mem_groupsText h with h | h
      · cases h
      · cases h
    have hleft := readSide_groupsText fun g hg => hlt g (List.mem_of_mem_take (i := first) hg)
    have hright := readSide_groupsText fun g hg => hlt g (List.mem_of_mem_drop (i := last) hg)
    unfold readIPv6
    rw [htext, hsplit]
    simp only [splitEllipsis, Option.map_some, prepend, List.append_nil, if_neg hdot, hleft, hright,
      Option.bind_eq_bind, Option.bind_some, List.length_take, List.length_drop, hlength]
    rw [if_pos (by omega), show 8 - min first 8 - (8 - last) = last - first by omega, ← hgroups]

theorem mem_groupsForm (h : c ∈ (groupsForm groups).toList) : c = ':' ∨ (digitValue c).isSome := by
  unfold groupsForm at h
  split at h
  · exact mem_groupsText h
  · rw [String.toList_append, String.toList_append, List.mem_append, List.mem_append] at h
    rcases h with (h | h) | h
    · exact mem_groupsText h
    · left
      simpa using h
    · exact mem_groupsText h

/-- An address of eight groups contains a colon. -/
theorem colon_mem_groupsForm (hlength : groups.length = 8) : ':' ∈ (groupsForm groups).toList := by
  unfold groupsForm
  split
  · match groups, hlength with
    | g :: next :: later, _ =>
      rw [groupsText_cons_cons]
      simp
  · simp

/-- The text of a mapped IPv4 address is read as eight groups. -/
theorem readIPv6_mapped (h : n < 2 ^ 32) : readIPv6 ("::ffff:" ++ ipv4Text n).toList =
      some [0, 0, 0, 0, 0, 65535, n / 65536, n % 65536] := by
  have htext : ("::ffff:" ++ ipv4Text n).toList =
      ':' :: ':' :: ("ffff".toList ++ ':' :: (ipv4Text n).toList) := by
    simp
  have hcolon : ':' ∉ (ipv4Text n).toList := by
    intro h
    rcases mem_ipv4Text h with h | h
    · cases h
    · cases h
  have hfields : fieldsOf ':' ("ffff".toList ++ ':' :: (ipv4Text n).toList) =
      ["ffff".toList, (ipv4Text n).toList] := by
    rw [fieldsOf_append (by decide), fieldsOf_eq_singleton hcolon]
  have hgroups : readGroups ["ffff".toList, (ipv4Text n).toList] =
      some [65535, n / 65536, n % 65536] := by
    unfold readGroups readGroups
    rw [if_pos (dot_mem_ipv4Text n), readIPv4_ipv4Text h]
    rfl
  have hside : readSide ("ffff".toList ++ ':' :: (ipv4Text n).toList) =
      some [65535, n / 65536, n % 65536] := by
    unfold readSide
    rw [if_neg (by simp), hfields, hgroups]
  unfold readIPv6
  rw [htext]
  show (readSide ("ffff".toList ++ ':' :: (ipv4Text n).toList)).bind _ = _
  rw [hside]
  rfl

/-! ### Addresses and prefixes -/

/-- The characters of an address are digits and separators. -/
theorem Addr.mem_text {a : Addr} (h : c ∈ a.text.toList) :
    c = '.' ∨ c = ':' ∨ (digitValue c).isSome := by
  cases a with
  | v4 value =>
    rcases mem_ipv4Text h with h | h
    · exact .inl h
    · exact .inr (.inr h)
  | v6 value =>
    unfold Addr.text at h
    simp only at h
    split at h
    · rw [String.toList_append, List.mem_append] at h
      rcases h with h | h
      · have hchars : c = ':' ∨ c = 'f' ∨ c = ':' := by
          simpa using h
        rcases hchars with rfl | rfl | rfl
        · exact .inr (.inl rfl)
        · exact .inr (.inr rfl)
        · exact .inr (.inl rfl)
      · rcases mem_ipv4Text h with h | h
        · exact .inl h
        · exact .inr (.inr h)
    · exact .inr (mem_groupsForm h)

/-- The first separator of a text all of whose separators are the same. -/
theorem find?_separator {sep : Char} {cs : List Char} (hmem : sep ∈ cs)
    (hsep : sep = '.' ∨ sep = ':') (hchars : ∀ c ∈ cs, c = sep ∨ (digitValue c).isSome) :
    cs.find? (fun c => c = '.' ∨ c = ':' ∨ c = '%') = some sep := by
  cases hfind : cs.find? (fun c => c = '.' ∨ c = ':' ∨ c = '%') with
  | none =>
    have hnone := List.find?_eq_none.mp hfind sep hmem
    rcases hsep with rfl | rfl <;> simp at hnone
  | some c =>
    have hc := List.find?_some hfind
    rcases hchars c (List.mem_of_find?_eq_some hfind) with rfl | hdigit
    · rfl
    · simp only [decide_eq_true_eq] at hc
      rcases hc with rfl | rfl | rfl <;> cases hdigit

/-- The text of an IPv6 address starts with a colon or a group, and is read as groups that stand
    for its value. -/
theorem v6_text (value : BitVec 128) :
    (Addr.v6 value).text.toList.find? (fun c => c = '.' ∨ c = ':' ∨ c = '%') = some ':' ∧
      ∃ groups, readIPv6 (Addr.v6 value).text.toList = some groups ∧
        groups.foldl (fun n g => n * 65536 + g) 0 = value.toNat := by
  have hlt := value.isLt
  by_cases hmapped : value.toNat / 2 ^ 32 = 65535
  · have htext : (Addr.v6 value).text = "::ffff:" ++ ipv4Text (value.toNat % 2 ^ 32) :=
      if_pos hmapped
    rw [htext]
    refine ⟨by simp, _, readIPv6_mapped (Nat.mod_lt _ (by norm_num)), ?_⟩
    simp only [List.foldl_cons, List.foldl_nil]
    omega
  · have htext : (Addr.v6 value).text = groupsForm (groupsOf value.toNat) := if_neg hmapped
    rw [htext]
    refine ⟨?_, _, ?_, foldl_groupsOf hlt⟩
    · exact find?_separator (colon_mem_groupsForm (length_groupsOf _)) (.inr rfl)
        fun c hc => mem_groupsForm hc
    · exact readIPv6_groupsForm (length_groupsOf _) fun g hg => lt_of_mem_groupsOf hg

/-- Reading the text of an address gives the address, without a zone. -/
theorem parseAddrZone_text (a : Addr) : parseAddrZone a.text = some (a, []) := by
  cases a with
  | v4 value =>
    have hfind : (Addr.v4 value).text.toList.find? (fun c => c = '.' ∨ c = ':' ∨ c = '%') =
        some '.' :=
      find?_separator (dot_mem_ipv4Text _) (.inl rfl) fun c hc => mem_ipv4Text hc
    have hread : readIPv4 (Addr.v4 value).text.toList = some value.toNat :=
      readIPv4_ipv4Text value.isLt
    unfold parseAddrZone
    rw [hfind]
    simp [hread]
  | v6 value =>
    have hzone : ∀ c ∈ (Addr.v6 value).text.toList, c ≠ '%' := by
      intro c hc heq
      rcases Addr.mem_text hc with h | h | h
      · cases heq ▸ h
      · cases heq ▸ h
      · cases heq ▸ h
    obtain ⟨hfind, groups, hread, hvalue⟩ := v6_text value
    unfold parseAddrZone
    rw [hfind]
    simp only
    rw [List.takeWhile_eq_self_iff.mpr (by simpa using hzone),
      List.dropWhile_eq_nil_iff.mpr (by simpa using hzone), hread]
    simp [hvalue]

/-- Reading the text of a prefix gives the prefix. -/
theorem parsePrefix_text (p : Prefix) : parsePrefix p.text = some p := by
  have hslash : '/' ∉ p.addr.text.toList := by
    intro h
    rcases Addr.mem_text h with h | h | h <;> cases h
  have hbits : '/' ∉ Nat.toDigits 10 p.bits := notMem_toDigits (by omega) (by omega) (by decide)
  have hfields : fieldsOf '/' p.text.toList = [p.addr.text.toList, Nat.toDigits 10 p.bits] := by
    have htext : p.text.toList = p.addr.text.toList ++ '/' :: Nat.toDigits 10 p.bits := by
      unfold Prefix.text
      rw [String.toList_append, String.toList_append, toList_toString]
      simp
    rw [htext, fieldsOf_append hslash, fieldsOf_eq_singleton hbits]
  have hzero : (Nat.toDigits 10 p.bits).length ≤ 1 ∨ (Nat.toDigits 10 p.bits).head? ≠ some '0' :=
    toDigits_no_leading_zero (by omega) (by omega)
  unfold parsePrefix
  rw [hfields]
  simp only [String.ofList_toList, parseAddrZone_text, Option.bind_eq_bind, Option.bind_some,
    readNumber_toDigits (by omega : 1 < 10) (by omega)]
  rw [dif_pos ⟨p.bits_le, trivial, hzero⟩]

end SbGateway.Lib
