import Colloquy.Text.Cut
import Mathlib.Data.List.Infix
import Mathlib.Data.List.TakeWhile

/-!
# Colloquy — laws of cutting

A pattern can be cut from a text exactly where it occurs in it (`contains_iff`), and
the parts around it make up the text (`eq_of_cut?`). To remove a first occurrence is
to put these parts together (`exists_removeFirst`). At a single character a text is cut
where it first occurs (`splitOnce?_eq_some_iff`), and a pattern is dropped from the end of a
text exactly if the text ends so (`dropEnd?_eq_some_iff`). To cut a text at every occurrence of a
character and to join the parts are inverse to each other (`joinWith_splitAll`,
`splitAll_joinWith`).
-/

namespace Colloquy.Text

theorem eq_of_cut? {pat s before after : List Char} (h : cut? pat s = some (before, after)) :
    s = before ++ pat ++ after := by
  induction s generalizing before with
  | nil =>
    rw [cut?] at h
    split at h
    · next hp =>
      rw [List.isEmpty_iff.mp hp]
      simpa using h.symm
    · simp at h
  | cons c s ih =>
    rw [cut?] at h
    split at h
    · next hp =>
      obtain ⟨t, ht⟩ := List.isPrefixOf_iff_prefix.mp hp
      rw [← ht, List.drop_left] at h
      obtain ⟨rfl, rfl⟩ : [] = before ∧ t = after := by simpa using h
      exact ht.symm
    · rw [Option.map_eq_some_iff] at h
      obtain ⟨⟨b, a⟩, hba, heq⟩ := h
      obtain ⟨rfl, rfl⟩ : c :: b = before ∧ a = after := by simpa using heq
      rw [List.cons_append, List.cons_append, ← ih hba]

/-- A single character is found where it first occurs. -/
theorem not_mem_of_cut? {c : Char} {s before after : List Char}
    (h : cut? [c] s = some (before, after)) : c ∉ before := by
  induction s generalizing before with
  | nil => simp [cut?] at h
  | cons d s ih =>
    rw [cut?] at h
    split at h
    · obtain ⟨rfl, -⟩ := Prod.mk.inj (Option.some.inj h)
      exact List.not_mem_nil
    · next hpre =>
      obtain ⟨⟨b, a⟩, hba, heq⟩ := Option.map_eq_some_iff.mp h
      obtain ⟨rfl, rfl⟩ := Prod.mk.inj heq
      have hne : c ≠ d := by
        rintro rfl
        simp [List.isPrefixOf] at hpre
      exact List.not_mem_cons_of_ne_of_not_mem hne (ih hba)

/-- A pattern is found behind a text without its first character. -/
theorem cut?_append {c : Char} {a : List Char} (h : c ∉ a) (pat s : List Char) :
    cut? (c :: pat) (a ++ (c :: pat ++ s)) = some (a, s) := by
  induction a with
  | nil =>
    have hpre : (c :: pat).isPrefixOf (c :: pat ++ s) = true :=
      List.isPrefixOf_iff_prefix.mpr (List.prefix_append ..)
    rw [List.nil_append, List.cons_append] at *
    rw [cut?, if_pos hpre, ← List.cons_append, List.drop_left]
  | cons d a ih =>
    rw [List.mem_cons, not_or] at h
    have hpre : ¬ (c :: pat).isPrefixOf (d :: (a ++ (c :: pat ++ s))) = true := by
      rw [List.isPrefixOf_iff_prefix, List.cons_prefix_cons]
      exact fun hpre => h.1 hpre.1
    rw [List.cons_append, cut?, if_neg hpre, ih h.2]
    rfl

theorem contains_iff {pat s : List Char} : contains pat s = true ↔ pat <:+: s := by
  constructor
  · intro h
    obtain ⟨⟨b, a⟩, hba⟩ := Option.isSome_iff_exists.mp h
    exact ⟨b, a, (eq_of_cut? hba).symm⟩
  · intro h
    induction s with
    | nil =>
      rw [List.infix_nil] at h
      subst h
      rfl
    | cons c s ih =>
      rw [contains, cut?]
      split
      · rfl
      · next hp =>
        rw [List.infix_cons_iff, ← List.isPrefixOf_iff_prefix] at h
        rw [Option.isSome_map]
        exact ih (h.resolve_left hp)

/-- Removing a pattern that occurs puts the parts around an occurrence together. -/
theorem exists_removeFirst {pat s : List Char} (h : pat <:+: s) :
    ∃ before after, s = before ++ pat ++ after ∧ removeFirst pat s = before ++ after := by
  obtain ⟨⟨b, a⟩, hba⟩ := Option.isSome_iff_exists.mp (contains_iff.mpr h)
  exact ⟨b, a, eq_of_cut? hba, by rw [removeFirst, hba]⟩

theorem removeFirst_append {c : Char} {a : List Char} (h : c ∉ a) (pat s : List Char) :
    removeFirst (c :: pat) (a ++ (c :: pat ++ s)) = a ++ s := by
  rw [removeFirst, cut?_append h]

theorem removeFirst_eq_self {pat s : List Char} (h : ¬ pat <:+: s) :
    removeFirst pat s = s := by
  have hnone : cut? pat s = none := by
    rw [← Option.not_isSome_iff_eq_none]
    exact fun hs => h (contains_iff.mp hs)
  rw [removeFirst, hnone]

theorem removeFirst_sublist (pat s : List Char) : (removeFirst pat s).Sublist s := by
  by_cases h : pat <:+: s
  · obtain ⟨b, a, hs, hr⟩ := exists_removeFirst h
    rw [hr, hs, List.append_assoc]
    exact (List.sublist_append_right pat a).append_left b
  · rw [removeFirst_eq_self h]

/-- A character that is not in the pattern stays. -/
theorem mem_removeFirst {pat s : List Char} {c : Char} (hc : c ∈ s) (hp : c ∉ pat) :
    c ∈ removeFirst pat s := by
  by_cases h : pat <:+: s
  · obtain ⟨b, a, hs, hr⟩ := exists_removeFirst h
    rw [hs] at hc
    rw [hr]
    simpa [hp] using hc
  · rwa [removeFirst_eq_self h]

/-- Removing a pattern that occurs takes away all its characters once. -/
theorem count_removeFirst {pat s : List Char} (h : pat <:+: s) (c : Char) :
    (removeFirst pat s).count c + pat.count c = s.count c := by
  obtain ⟨b, a, hs, hr⟩ := exists_removeFirst h
  rw [hr, hs]
  simp only [List.count_append]
  omega

theorem isPrefixOf_concat {pat : List Char} {c : Char} (hc : c ∉ pat) (s : List Char) :
    pat.isPrefixOf (s ++ [c]) = pat.isPrefixOf s := by
  rw [Bool.eq_iff_iff, List.isPrefixOf_iff_prefix, List.isPrefixOf_iff_prefix,
    List.prefix_concat_iff]
  constructor
  · rintro (rfl | h)
    · simp at hc
    · exact h
  · exact Or.inr

/-- A character after the text that is not in the pattern has no part in the removal. -/
theorem removeFirst_concat {pat : List Char} {c : Char} (hc : c ∉ pat) (hp : pat ≠ [])
    (s : List Char) : removeFirst pat (s ++ [c]) = removeFirst pat s ++ [c] := by
  -- the pattern is found at the same place, and the character ends the part after it
  have hcut : cut? pat (s ++ [c]) = (cut? pat s).map fun parts => (parts.1, parts.2 ++ [c]) := by
    induction s with
    | nil =>
      have hpre : pat.isPrefixOf [c] = false := by
        rw [← List.nil_append [c], isPrefixOf_concat hc]
        cases pat with
        | nil => exact absurd rfl hp
        | cons => rfl
      have hempty : pat.isEmpty = false := by simpa using hp
      simp [cut?, hpre, hempty]
    | cons d s ih =>
      rw [List.cons_append, cut?, cut?, ← List.cons_append, isPrefixOf_concat hc]
      split
      · next hpre =>
        have hle := (List.isPrefixOf_iff_prefix.mp hpre).length_le
        rw [List.drop_append_of_le_length hle]
        rfl
      · rw [ih, Option.map_map, Option.map_map]
        rfl
  rw [removeFirst, removeFirst, hcut]
  cases cut? pat s with
  | none => rfl
  | some parts => simp

theorem cutWhere?_eq_some_iff {c : Char} {s before after : List Char} :
    cutWhere? (· == c) s = some (before, after) ↔ s = before ++ c :: after ∧ c ∉ before := by
  constructor
  · intro h
    rw [cutWhere?] at h
    split at h
    · exact absurd h nofun
    · next d rest hdrop =>
      obtain ⟨rfl, rfl⟩ := Prod.mk.inj (Option.some.inj h)
      have hd : d = c := by
        have hne : s.dropWhile (fun d => !(d == c)) ≠ [] := by simp [hdrop]
        simpa [hdrop] using List.head_dropWhile_not (fun d => !(d == c)) hne
      subst hd
      refine ⟨?_, fun hmem => by simpa using List.mem_takeWhile_imp hmem⟩
      rw [← hdrop, List.takeWhile_append_dropWhile]
  · rintro ⟨rfl, hc⟩
    have hbefore : ∀ d ∈ before, (!(d == c)) = true := by
      rintro d hd
      simpa using fun heq : d = c => hc (heq ▸ hd)
    rw [cutWhere?, List.dropWhile_append_of_pos hbefore, List.takeWhile_append_of_pos hbefore]
    simp

/-- The parts between characters have none of them. -/
theorem not_mem_of_mem_splitOn {c : Char} {s part : List Char} (h : part ∈ s.splitOn c) :
    c ∉ part := by
  induction s generalizing part with
  | nil =>
    rw [List.splitOn_nil, List.mem_singleton] at h
    simp [h]
  | cons d s ih =>
    obtain ⟨first, rest, hs⟩ := List.exists_cons_of_ne_nil (List.splitOn_ne_nil c s)
    rw [List.splitOn_cons_eq_if_modifyHead, hs] at h
    -- such a character starts a new part, any other begins the first
    split at h
    · rcases List.mem_cons.mp h with rfl | h'
      · simp
      · exact ih (hs ▸ h')
    · next hd =>
      rw [List.modifyHead_cons] at h
      rcases List.mem_cons.mp h with rfl | h'
      · have := ih (hs ▸ List.mem_cons_self ..)
        simp only [beq_iff_eq] at hd
        simp [this, Ne.symm hd]
      · exact ih (hs ▸ List.mem_cons_of_mem _ h')

end Colloquy.Text

namespace Colloquy

theorem splitOnce?_eq_some_iff {s before after : String} {c : Char} :
    splitOnce? s c = some (before, after) ↔
      s.toList = before.toList ++ c :: after.toList ∧ c ∉ before.toList := by
  rw [← Text.cutWhere?_eq_some_iff, splitOnce?, Option.map_eq_some_iff]
  constructor
  · rintro ⟨parts, hparts, heq⟩
    obtain ⟨rfl, rfl⟩ := Prod.mk.inj heq
    rw [String.toList_ofList, String.toList_ofList, hparts]
  · intro h
    exact ⟨_, h, by rw [String.ofList_toList, String.ofList_toList]⟩

theorem splitOnce?_eq_none_iff {s : String} {c : Char} : splitOnce? s c = none ↔ c ∉ s.toList := by
  constructor
  · intro h hc
    obtain ⟨before, after, hs, hbefore⟩ := List.eq_append_cons_of_mem hc
    have hsome : splitOnce? s c = some (String.ofList before, String.ofList after) :=
      splitOnce?_eq_some_iff.mpr (by simpa using ⟨hs, hbefore⟩)
    exact absurd (h.symm.trans hsome) nofun
  · intro hc
    cases h : splitOnce? s c with
    | none => rfl
    | some parts =>
      refine absurd ?_ hc
      rw [(splitOnce?_eq_some_iff.mp h).1]
      simp

theorem dropEnd?_eq_some_iff {s rest pat : String} :
    dropEnd? s pat = some rest ↔ s = rest ++ pat := by
  rw [dropEnd?, Text.dropEnd?, Option.map_eq_some_iff, ← String.toList_inj, String.toList_append]
  constructor
  · rintro ⟨chars, hchars, rfl⟩
    split at hchars
    · next hsuffix =>
      obtain ⟨before, hbefore⟩ := List.isSuffixOf_iff_suffix.mp hsuffix
      rw [String.toList_ofList, ← Option.some.inj hchars, ← hbefore, List.length_append,
        Nat.add_sub_cancel, List.take_left]
    · exact absurd hchars nofun
  · intro hs
    have hsuffix : pat.toList.isSuffixOf s.toList = true :=
      List.isSuffixOf_iff_suffix.mpr ⟨rest.toList, hs.symm⟩
    refine ⟨rest.toList, ?_, String.ofList_toList⟩
    rw [if_pos hsuffix, hs, List.length_append, Nat.add_sub_cancel, List.take_left]

theorem dropEnd?_eq_none_iff {s pat : String} :
    dropEnd? s pat = none ↔ ∀ rest, s ≠ rest ++ pat := by
  rw [Option.eq_none_iff_forall_ne_some]
  exact forall_congr' fun rest => not_congr dropEnd?_eq_some_iff

theorem dropStart?_eq_some_iff {s rest pat : String} :
    dropStart? s pat = some rest ↔ s = pat ++ rest := by
  rw [dropStart?, Text.dropStart?, Option.map_eq_some_iff, ← String.toList_inj,
    String.toList_append]
  constructor
  · rintro ⟨chars, hchars, rfl⟩
    split at hchars
    · next hstarts =>
      obtain ⟨after, hafter⟩ := List.isPrefixOf_iff_prefix.mp hstarts
      rw [String.toList_ofList, ← Option.some.inj hchars, ← hafter, List.drop_left]
    · exact absurd hchars nofun
  · intro hs
    have hstarts : pat.toList.isPrefixOf s.toList = true :=
      List.isPrefixOf_iff_prefix.mpr ⟨rest.toList, hs.symm⟩
    refine ⟨rest.toList, ?_, String.ofList_toList⟩
    rw [if_pos hstarts, hs, List.drop_left]

theorem dropStart?_eq_none_iff {s pat : String} :
    dropStart? s pat = none ↔ ∀ rest, s ≠ pat ++ rest := by
  rw [Option.eq_none_iff_forall_ne_some]
  exact forall_congr' fun rest => not_congr dropStart?_eq_some_iff

section

variable {c : Char} {sep : String}

theorem toList_joinWith (sep : String) (parts : List String) :
    (joinWith sep parts).toList = sep.toList.intercalate (parts.map String.toList) := by
  induction parts with
  | nil => rfl
  | cons part parts ih =>
    cases parts with
    | nil => simp [joinWith]
    | cons next parts =>
      rw [joinWith, String.toList_append, String.toList_append, ih]
      simp

theorem splitAll_ne_nil (s : String) (c : Char) : splitAll s c ≠ [] := by
  simp [splitAll, List.splitOn_ne_nil]

theorem not_mem_of_mem_splitAll {s part : String} (h : part ∈ splitAll s c) : c ∉ part.toList := by
  obtain ⟨chars, hchars, rfl⟩ := List.mem_map.mp h
  rw [String.toList_ofList]
  exact Text.not_mem_of_mem_splitOn hchars

/-- The parts of a text between characters, joined by them again, are the text. -/
theorem joinWith_splitAll (hsep : sep.toList = [c]) (s : String) :
    joinWith sep (splitAll s c) = s := by
  rw [← String.toList_inj, toList_joinWith, hsep, splitAll, List.map_map]
  have hid : String.toList ∘ String.ofList = id := funext fun _ => String.toList_ofList
  rw [hid, List.map_id, List.intercalate_splitOn]

/-- Parts that are joined are found again if the character is in none of them. -/
theorem splitAll_joinWith (hsep : sep.toList = [c]) {parts : List String} (hne : parts ≠ [])
    (h : ∀ part ∈ parts, c ∉ part.toList) : splitAll (joinWith sep parts) c = parts := by
  have hparts : ∀ chars ∈ parts.map String.toList, c ∉ chars := by
    intro chars hchars
    obtain ⟨part, hpart, rfl⟩ := List.mem_map.mp hchars
    exact h part hpart
  rw [splitAll, toList_joinWith, hsep, List.splitOn_intercalate c hparts (by simpa using hne),
    List.map_map]
  have hid : String.ofList ∘ String.toList = id := funext fun _ => String.ofList_toList
  rw [hid, List.map_id]

end

end Colloquy
