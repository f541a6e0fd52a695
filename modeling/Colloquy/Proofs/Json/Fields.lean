import Colloquy.Json.Basic

/-!
# Colloquy — laws of fields

The fields of an object are a map: what is found under a key after another key was
dropped or written is what was found before (`Fields.get?_filter`, `Fields.get?_insert`).
Fields put underneath others are found under the keys that the others do not have
(`Fields.get?_insertNewAll`), and of several that make an object the last one with a key
counts (`Fields.get?_ofList`). The keys of an object are in order
(`Fields.ascending_ofList`), and fields whose keys are in order make themselves
(`Fields.ofList_of_ascending`); objects under whose keys the same is found are the same
(`Fields.eq_of_get?_eq`).
-/

namespace Colloquy.Fields

theorem mem_of_get? {key : String} {v : Json} {fields : Fields} (h : get? key fields = some v) :
    (key, v) ∈ fields := by
  induction fields with
  | nil => exact absurd h nofun
  | cons field fields ih =>
    obtain ⟨k, u⟩ := field
    rw [get?] at h
    by_cases hk : k = key
    · rw [if_pos hk] at h
      obtain rfl := Option.some.inj h
      exact hk ▸ List.mem_cons_self
    · rw [if_neg hk] at h
      exact List.mem_cons_of_mem _ (ih h)

theorem get?_eq_none_of_forall_ne {key : String} {fields : Fields} (h : ∀ f ∈ fields, f.1 ≠ key) :
    get? key fields = none := by
  cases hget : get? key fields with
  | none => rfl
  | some v => exact absurd rfl (h _ (mem_of_get? hget))

/-- Of the fields whose keys pass a test, a key that passes has the value that it had. -/
theorem get?_filter (p : String → Bool) (key : String) (fields : Fields) :
    get? key (fields.filter fun field => p field.1) =
      if p key then get? key fields else none := by
  induction fields with
  | nil => simp [get?]
  | cons field fields ih =>
    obtain ⟨k, v⟩ := field
    rw [List.filter_cons]
    by_cases hkey : k = key
    · subst hkey
      by_cases hp : p k = true
      · rw [if_pos hp, if_pos hp, get?, if_pos rfl, get?, if_pos rfl]
      · rw [if_neg hp, ih, if_neg hp, if_neg hp]
    · have hrest : get? key ((k, v) :: fields) = get? key fields := by
        rw [get?, if_neg hkey]
      rw [hrest, ← ih]
      split
      · rw [get?, if_neg hkey]
      · rfl

/-- A dropped key has no value, and all others keep theirs. -/
theorem get?_erase (key dropped : String) (fields : Fields) :
    get? key (erase dropped fields) = if key = dropped then none else get? key fields := by
  have hfilter := get?_filter (fun k => k != dropped) key fields
  refine hfilter.trans ?_
  by_cases h : key = dropped
  · simp [h]
  · simp [h]

theorem contains_erase (key dropped : String) (fields : Fields) :
    contains key (erase dropped fields) = (key != dropped && contains key fields) := by
  rw [contains, get?_erase, contains]
  by_cases h : key = dropped
  · simp [h]
  · simp [h]

/-- A written key has the new value, and all others keep theirs. -/
theorem get?_insert (key written : String) (value : Json) (fields : Fields) :
    get? key (insert written value fields) =
      if key = written then some value else get? key fields := by
  induction fields with
  | nil =>
    simp only [insert, get?]
    by_cases h : key = written
    · rw [if_pos h, if_pos h.symm]
    · rw [if_neg h, if_neg (Ne.symm h)]
  | cons field fields ih =>
    obtain ⟨k, v⟩ := field
    rw [insert]
    by_cases hkey : key = written
    · subst hkey
      rw [if_pos rfl] at ih ⊢
      split
      · rw [get?, if_pos rfl]
      · split
        · rw [get?, if_pos rfl]
        · next hne => rw [get?, if_neg hne, ih]
    · rw [if_neg hkey] at ih ⊢
      have hkey' : written ≠ key := Ne.symm hkey
      split
      · rw [get?, if_neg hkey']
      · split
        · next heq => rw [get?, if_neg hkey', get?, if_neg (heq ▸ hkey')]
        · rw [get?, ih, get?]

theorem get?_insertNew (key written : String) (value : Json) (fields : Fields) :
    get? key (insertNew written value fields) =
      (get? key fields).or (if key = written then some value else none) := by
  rw [insertNew, contains]
  by_cases hkey : key = written
  · subst hkey
    cases hget : get? key fields with
    | none => simp [get?_insert]
    | some found => simp [hget]
  · rw [if_neg hkey, Option.or_none]
    split
    · rfl
    · rw [get?_insert, if_neg hkey]

/-- Fields put underneath others are found under the keys that the others do not have. -/
theorem get?_insertNewAll (key : String) (fields lower : Fields) :
    get? key (insertNewAll fields lower) = (get? key fields).or (get? key lower) := by
  induction lower generalizing fields with
  | nil => exact (Option.or_none ..).symm
  | cons field lower ih =>
    obtain ⟨k, v⟩ := field
    have hrest : get? key (insertNewAll fields ((k, v) :: lower)) =
        (get? key (insertNew k v fields)).or (get? key lower) := ih (insertNew k v fields)
    rw [hrest, get?_insertNew, Option.or_assoc, get?]
    congr 1
    by_cases hkey : key = k
    · rw [if_pos hkey, if_pos hkey.symm, Option.some_or]
    · rw [if_neg hkey, if_neg (Ne.symm hkey), Option.none_or]

/-- Fields put over others leave the keys that they do not have as they are. -/
theorem get?_insertAll_of_not_contains {key : String} {upper : Fields}
    (h : contains key upper = false) (fields : Fields) :
    get? key (insertAll fields upper) = get? key fields := by
  induction upper generalizing fields with
  | nil => rfl
  | cons field upper ih =>
    obtain ⟨k, v⟩ := field
    rw [contains, get?] at h
    by_cases hk : k = key
    · rw [if_pos hk] at h
      exact absurd h (by simp)
    · rw [if_neg hk] at h
      have hrest := ih h (insert k v fields)
      rw [get?_insert, if_neg fun h' => hk h'.symm] at hrest
      exact hrest

theorem get?_append (key : String) (fields later : Fields) :
    get? key (fields ++ later) = (get? key fields).or (get? key later) := by
  induction fields with
  | nil => rfl
  | cons field fields ih =>
    obtain ⟨k, v⟩ := field
    rw [List.cons_append, get?, get?, ih]
    split
    · rfl
    · rfl

theorem contains_append (key : String) (fields later : Fields) :
    contains key (fields ++ later) = (contains key fields || contains key later) := by
  rw [contains, get?_append, Option.isSome_or]
  rfl

/-- Of the fields put over others, the last one with a key counts. -/
theorem get?_insertAll (key : String) (fields upper : Fields) :
    get? key (insertAll fields upper) = (get? key upper.reverse).or (get? key fields) := by
  induction upper generalizing fields with
  | nil => rfl
  | cons field upper ih =>
    obtain ⟨k, v⟩ := field
    have hrest : insertAll fields ((k, v) :: upper) = insertAll (insert k v fields) upper := rfl
    rw [hrest, ih, get?_insert, List.reverse_cons, get?_append, Option.or_assoc]
    congr 1
    by_cases hkey : key = k
    · rw [if_pos hkey, get?, if_pos hkey.symm, Option.some_or]
    · rw [if_neg hkey, get?, if_neg (Ne.symm hkey), get?, Option.none_or]

/-- Of several fields with one key, an object has the last. -/
theorem get?_ofList (key : String) (fields : Fields) :
    get? key (ofList fields) = get? key fields.reverse := by
  have hall : ofList fields = insertAll [] fields := rfl
  rw [hall, get?_insertAll, get?, Option.or_none]

theorem ofList_append (fields later : Fields) :
    ofList (fields ++ later) = insertAll (ofList fields) later :=
  List.foldl_append

/-- Where keys are distinct, each field is found under its key. -/
theorem get?_of_mem {key : String} {value : Json} {fields : Fields}
    (hkeys : (fields.map Prod.fst).Nodup) (h : (key, value) ∈ fields) :
    get? key fields = some value := by
  induction fields with
  | nil => exact absurd h List.not_mem_nil
  | cons field fields ih =>
    obtain ⟨k, v⟩ := field
    rw [List.map_cons, List.nodup_cons] at hkeys
    rw [get?]
    rcases List.mem_cons.mp h with heq | hrest
    · obtain ⟨rfl, rfl⟩ := Prod.mk.inj heq
      rw [if_pos rfl]
    · have hmem : key ∈ fields.map Prod.fst := List.mem_map_of_mem hrest
      have hne : k ≠ key := fun heq => hkeys.1 (heq ▸ hmem)
      rw [if_neg hne, ih hkeys.2 hrest]

theorem get?_ofList_of_mem {key : String} {value : Json} {fields : Fields}
    (hkeys : (fields.map Prod.fst).Nodup) (h : (key, value) ∈ fields) :
    get? key (ofList fields) = some value := by
  rw [get?_ofList]
  refine get?_of_mem ?_ (List.mem_reverse.mpr h)
  rw [List.map_reverse]
  exact List.pairwise_reverse.mpr (hkeys.imp Ne.symm)

/-- Fields that are given later under other keys leave the value under a key as it is. -/
theorem get?_ofList_append {key : String} {later : Fields} (h : contains key later = false)
    (fields : Fields) : get? key (ofList (fields ++ later)) = get? key (ofList fields) := by
  rw [ofList_append, get?_insertAll_of_not_contains h]

-- ---------------------------------------------------------------------------
-- The order of keys
-- ---------------------------------------------------------------------------

theorem ascending_of_keys {fields : Fields} {keys : List String}
    (hkeys : fields.map Prod.fst = keys) (h : keys.Pairwise (· < ·)) : Ascending fields := by
  subst hkeys
  exact List.pairwise_map.mp h

/-- A key after all others is written at the end. -/
theorem insert_of_forall_lt {key : String} {fields : Fields} (h : ∀ f ∈ fields, f.1 < key)
    (value : Json) : insert key value fields = fields ++ [(key, value)] := by
  induction fields with
  | nil => rfl
  | cons field fields ih =>
    obtain ⟨hfield, hfields⟩ := List.forall_mem_cons.mp h
    obtain ⟨k, v⟩ := field
    have hk : k < key := hfield
    rw [insert, if_neg (String.lt_asymm hk), if_neg (fun heq => String.lt_irrefl _ (heq ▸ hk)),
      ih hfields, List.cons_append]

theorem foldl_insert_of_ascending {fields later : Fields} (h : Ascending (fields ++ later)) :
    later.foldl (fun acc pair => acc.insert pair.1 pair.2) fields = fields ++ later := by
  induction later generalizing fields with
  | nil => rw [List.foldl_nil, List.append_nil]
  | cons field later ih =>
    have hlast : ∀ f ∈ fields, f.1 < field.1 :=
      fun f hf => (List.pairwise_append.mp h).2.2 f hf field (List.mem_cons_self ..)
    have hsplit : fields ++ field :: later = (fields ++ [field]) ++ later := by simp
    rw [List.foldl_cons, insert_of_forall_lt hlast, hsplit]
    exact ih (hsplit ▸ h)

/-- Fields in the order of their keys are the fields of their object. -/
theorem ofList_of_ascending {fields : Fields} (h : Ascending fields) : ofList fields = fields := by
  have hall : Ascending ([] ++ fields) := h
  exact foldl_insert_of_ascending hall

theorem mem_insert {key : String} {value : Json} {fields : Fields} {f : String × Json}
    (h : f ∈ insert key value fields) : f = (key, value) ∨ f ∈ fields := by
  induction fields with
  | nil => exact Or.inl (List.mem_singleton.mp h)
  | cons field fields ih =>
    obtain ⟨k, v⟩ := field
    rw [insert] at h
    split at h
    · exact List.mem_cons.mp h
    · split at h
      · rcases List.mem_cons.mp h with rfl | hrest
        · exact Or.inl rfl
        · exact Or.inr (List.mem_cons_of_mem _ hrest)
      · rcases List.mem_cons.mp h with rfl | hrest
        · exact Or.inr List.mem_cons_self
        · exact (ih hrest).imp_right (List.mem_cons_of_mem _)

theorem ascending_insert {fields : Fields} (h : Ascending fields) (key : String) (value : Json) :
    Ascending (insert key value fields) := by
  induction fields with
  | nil => exact List.pairwise_singleton _ _
  | cons field fields ih =>
    obtain ⟨k, v⟩ := field
    obtain ⟨hk, hfields⟩ := List.pairwise_cons.mp h
    rw [insert]
    split
    · next hlt =>
      refine List.pairwise_cons.mpr ⟨fun f hf => ?_, h⟩
      rcases List.mem_cons.mp hf with rfl | hf
      · exact hlt
      · exact String.lt_trans hlt (hk f hf)
    · next hle =>
      split
      · next heq => exact List.pairwise_cons.mpr ⟨fun f hf => heq ▸ hk f hf, hfields⟩
      · next hne =>
        have hlt : k < key := Std.lt_of_le_of_ne (String.not_lt.mp hle) hne
        refine List.pairwise_cons.mpr ⟨fun f hf => ?_, ih hfields⟩
        rcases mem_insert hf with rfl | hf
        · exact hlt
        · exact hk f hf

theorem ascending_insertAll {fields : Fields} (h : Ascending fields) (upper : Fields) :
    Ascending (insertAll fields upper) := by
  induction upper generalizing fields with
  | nil => exact h
  | cons field upper ih => exact ih (ascending_insert h field.1 field.2)

theorem ascending_ofList (pairs : List (String × Json)) : Ascending (ofList pairs) :=
  ascending_insertAll List.Pairwise.nil pairs

/-- Where each key has one field, the first one with a key is the last. -/
theorem get?_reverse_of_ascending {fields : Fields} (h : Ascending fields) (key : String) :
    get? key fields.reverse = get? key fields := by
  induction fields with
  | nil => rfl
  | cons field fields ih =>
    obtain ⟨k, v⟩ := field
    obtain ⟨hk, hfields⟩ := List.pairwise_cons.mp h
    rw [List.reverse_cons, get?_append, ih hfields, get?, get?, get?]
    by_cases hkey : k = key
    · have hnone : get? key fields = none := get?_eq_none_of_forall_ne fun f hf heq =>
        String.lt_irrefl _ (hkey ▸ heq ▸ hk f hf)
      rw [if_pos hkey, if_pos hkey, hnone, Option.none_or]
    · rw [if_neg hkey, if_neg hkey, Option.or_none]

/-- Of an object's fields put over others, those of the object count. -/
theorem get?_insertAll_of_ascending {upper : Fields} (h : Ascending upper) (key : String)
    (fields : Fields) :
    get? key (insertAll fields upper) = (get? key upper).or (get? key fields) := by
  rw [get?_insertAll, get?_reverse_of_ascending h]

theorem ascending_erase {fields : Fields} (h : Ascending fields) (key : String) :
    Ascending (erase key fields) :=
  h.filter _

theorem ascending_insertNew {fields : Fields} (h : Ascending fields) (key : String)
    (value : Json) : Ascending (insertNew key value fields) := by
  rw [insertNew]
  split
  · exact h
  · exact ascending_insert h key value

theorem ascending_insertNewAll {fields : Fields} (h : Ascending fields) (lower : Fields) :
    Ascending (insertNewAll fields lower) := by
  induction lower generalizing fields with
  | nil => exact h
  | cons field lower ih => exact ih (ascending_insertNew h field.1 field.2)

/-- Each key has one field. -/
theorem nodup_keys {fields : Fields} (h : Ascending fields) : (fields.map Prod.fst).Nodup := by
  have hkeys : (fields.map Prod.fst).Pairwise (· < ·) := List.pairwise_map.mpr h
  refine hkeys.imp ?_
  intro a b hlt heq
  exact String.lt_irrefl _ (heq ▸ hlt)

/-- A key before all others has no value. -/
theorem get?_eq_none_of_forall_lt {key : String} {fields : Fields} (h : ∀ f ∈ fields, key < f.1) :
    get? key fields = none :=
  get?_eq_none_of_forall_ne fun f hf heq => String.lt_irrefl _ (heq ▸ h f hf)

/-- A key that an object has does not come before its first one. -/
theorem not_lt_of_get?_eq_some {key first : String} {v u : Json} {fields : Fields}
    (hfields : Ascending ((first, u) :: fields)) (h : get? key ((first, u) :: fields) = some v) :
    ¬ key < first := by
  intro hlt
  have hnone : get? key ((first, u) :: fields) = none := by
    refine get?_eq_none_of_forall_lt (List.forall_mem_cons.mpr ⟨hlt, fun f hf => ?_⟩)
    exact String.lt_trans hlt ((List.pairwise_cons.mp hfields).1 f hf)
  exact absurd (hnone.symm.trans h) nofun

/-- Objects under whose keys the same is found are the same. -/
theorem eq_of_get?_eq {fields others : Fields} (h : Ascending fields) (hothers : Ascending others)
    (hget : ∀ key, get? key fields = get? key others) : fields = others := by
  induction fields generalizing others with
  | nil =>
    cases others with
    | nil => rfl
    | cons other others =>
      have hother := hget other.1
      rw [get?, get?, if_pos rfl] at hother
      exact absurd hother nofun
  | cons field fields ih =>
    obtain ⟨k, v⟩ := field
    cases others with
    | nil =>
      have hfield := hget k
      rw [get?, get?, if_pos rfl] at hfield
      exact absurd hfield nofun
    | cons other others =>
      obtain ⟨l, u⟩ := other
      have hself : ∀ (key : String) (value : Json) (rest : Fields),
          get? key ((key, value) :: rest) = some value := fun _ _ _ => if_pos rfl
      have hkl := not_lt_of_get?_eq_some hothers ((hget k).symm.trans (hself k v fields))
      have hlk := not_lt_of_get?_eq_some h ((hget l).trans (hself l u others))
      obtain rfl : k = l := String.le_antisymm (String.not_lt.mp hlk) (String.not_lt.mp hkl)
      obtain ⟨hk, hfields⟩ := List.pairwise_cons.mp h
      obtain ⟨hl, hrest⟩ := List.pairwise_cons.mp hothers
      obtain rfl : v = u :=
        Option.some.inj ((hself k v fields).symm.trans ((hget k).trans (hself k u others)))
      refine congrArg _ (ih hfields hrest fun key => ?_)
      by_cases hkey : k = key
      · subst hkey
        rw [get?_eq_none_of_forall_lt hk, get?_eq_none_of_forall_lt hl]
      · have hother := hget key
        rwa [get?, if_neg hkey, get?, if_neg hkey] at hother

/-- A field that is there can be written again. -/
theorem insert_eq_self {key : String} {value : Json} {fields : Fields}
    (hfields : Ascending fields) (h : get? key fields = some value) :
    insert key value fields = fields := by
  refine eq_of_get?_eq (ascending_insert hfields key value) hfields fun other => ?_
  rw [get?_insert]
  split
  · next heq => rw [heq, h]
  · rfl

/-- Fields whose values are changed one by one are found changed. -/
theorem get?_map (f : Json → Json) (key : String) (fields : Fields) :
    get? key (fields.map fun field => (field.1, f field.2)) = (get? key fields).map f := by
  induction fields with
  | nil => rfl
  | cons field fields ih =>
    rw [List.map_cons, get?, get?, ih]
    split
    · rfl
    · rfl

end Colloquy.Fields

namespace Colloquy.Json

/-- The fields of an object with its keys in order have theirs in order too. -/
theorem ordered_of_get? {key : String} {v : Json} {fields : Fields} (h : OrderedFields fields)
    (hget : Fields.get? key fields = some v) : v.Ordered := by
  induction fields with
  | nil => exact absurd hget nofun
  | cons field fields ih =>
    rw [Fields.get?] at hget
    split at hget
    · rw [← Option.some.inj hget]
      exact h.1
    · exact ih h.2 hget

theorem field?_object (key : String) (pairs : List (String × Json)) :
    field? key (object pairs) = Fields.get? key pairs.reverse :=
  Fields.get?_ofList key pairs

end Colloquy.Json
