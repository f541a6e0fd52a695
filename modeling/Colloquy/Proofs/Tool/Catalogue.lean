import Colloquy.Tool.Catalogue
import Mathlib.Data.List.Induction
import Mathlib.Data.List.Pairwise

/-!
# Colloquy — laws of the catalogue

Whatever is done to a catalogue, its names stay distinct: a name has the tool that was
registered last under it since the name was last taken out, and the names stand in the order
in which each of them was first registered since then (`Catalogue.run_keeps_order`). Tools
that are collected first register the same as they do one by one
(`Catalogue.extend_ofList`).

* `Catalogue.Operation` — what is done to a catalogue.
* `Catalogue.Event` — what operations come down to: registering, removing and clearing.
* `Catalogue.Event.RegisteredLast`, `Catalogue.Event.EntersAt` — what a record of events says
  about a name.
-/

namespace Colloquy

namespace Catalogue

variable {σ : Type} {name : String} {tool : Tool σ}

-- ---------------------------------------------------------------------------
-- Single changes
-- ---------------------------------------------------------------------------

theorem map_name_registerIn (tool : Tool σ) (tools : List (Tool σ)) :
    (registerIn tool tools).map Tool.name =
      if tool.name ∈ tools.map Tool.name then tools.map Tool.name
      else tools.map Tool.name ++ [tool.name] := by
  induction tools with
  | nil => rfl
  | cons other rest ih =>
    rw [registerIn]
    by_cases h : other.name = tool.name
    · simp [h]
    · rw [if_neg h, List.map_cons, ih]
      by_cases hrest : tool.name ∈ rest.map Tool.name
      · rw [if_pos hrest, List.map_cons, if_pos (List.mem_cons_of_mem _ hrest)]
      · rw [if_neg hrest, List.map_cons, if_neg (by simpa [Ne.symm h] using hrest)]
        rfl

/-- Registering keeps the names where they are, and adds the tool's name at the end if it is new. -/
theorem names_register (c : Catalogue σ) (tool : Tool σ) :
    (c.register tool).names =
      if tool.name ∈ c.names then c.names else c.names ++ [tool.name] :=
  map_name_registerIn tool c.tools

theorem find?_registerIn (tool : Tool σ) (tools : List (Tool σ)) (name : String) :
    (registerIn tool tools).find? (fun t => t.name == name) =
      if tool.name = name then some tool else tools.find? fun t => t.name == name := by
  induction tools with
  | nil => by_cases hname : tool.name = name <;> simp [registerIn, hname]
  | cons other rest ih =>
    rw [registerIn]
    by_cases h : other.name = tool.name
    · by_cases hname : tool.name = name <;> simp [h, hname]
    · rw [if_neg h, List.find?_cons, List.find?_cons, ih]
      by_cases hother : other.name = name
      · have hname : tool.name ≠ name := fun hname => h (hother.trans hname.symm)
        simp [hother, hname]
      · simp [beq_false_of_ne hother]

theorem get?_register (c : Catalogue σ) (tool : Tool σ) (name : String) :
    (c.register tool).get? name = if tool.name = name then some tool else c.get? name :=
  find?_registerIn tool c.tools name

theorem map_name_removeFrom (name : String) (tools : List (Tool σ)) :
    (removeFrom name tools).map Tool.name = (tools.map Tool.name).erase name := by
  induction tools with
  | nil => rfl
  | cons tool rest ih =>
    rw [removeFrom]
    by_cases h : tool.name = name
    · simp [h]
    · rw [if_neg h, List.map_cons, ih, List.map_cons, List.erase_cons_tail (by simpa using h)]

theorem names_remove (c : Catalogue σ) (name : String) :
    (c.remove name).2.names = c.names.erase name :=
  map_name_removeFrom name c.tools

theorem get?_eq_none_iff (c : Catalogue σ) (name : String) :
    c.get? name = none ↔ name ∉ c.names := by
  simp [get?, names]

theorem find?_removeFrom_of_ne {other : String} (h : other ≠ name) (tools : List (Tool σ)) :
    (removeFrom name tools).find? (fun t => t.name == other) =
      tools.find? fun t => t.name == other := by
  induction tools with
  | nil => rfl
  | cons tool rest ih =>
    rw [removeFrom]
    by_cases hname : tool.name = name
    · simp [hname, Ne.symm h]
    · rw [if_neg hname, List.find?_cons, List.find?_cons, ih]

/-- In a catalogue of distinct names a name that is removed has no tool any more. -/
theorem get?_remove {c : Catalogue σ} (hc : c.names.Nodup) (name other : String) :
    (c.remove name).2.get? other = if name = other then none else c.get? other := by
  by_cases h : name = other
  · rw [if_pos h, get?_eq_none_iff, names_remove, ← h]
    exact hc.not_mem_erase
  · rw [if_neg h]
    exact find?_removeFrom_of_ne (Ne.symm h) c.tools

/-- In a catalogue of distinct names every tool is the one of its name. -/
theorem get?_of_mem {c : Catalogue σ} (hc : c.names.Nodup) (h : tool ∈ c.tools) :
    c.get? tool.name = some tool := by
  obtain ⟨tools⟩ := c
  show tools.find? (fun t => t.name == tool.name) = some tool
  have hnodup : (tools.map Tool.name).Nodup := hc
  induction tools with
  | nil => exact absurd h List.not_mem_nil
  | cons other rest ih =>
    rw [List.map_cons, List.nodup_cons] at hnodup
    rcases List.mem_cons.mp h with rfl | hrest
    · simp
    · have hne : other.name ≠ tool.name := fun heq =>
        hnodup.1 (heq ▸ List.mem_map_of_mem hrest)
      rw [List.find?_cons_of_neg (by simpa using hne)]
      exact ih hnodup.2 hrest hnodup.2

-- ---------------------------------------------------------------------------
-- Events
-- ---------------------------------------------------------------------------

/-- What operations on a catalogue come down to. -/
inductive Event (σ : Type) where
  | registered (tool : Tool σ)
  | removed (name : String)
  | cleared

namespace Event

def apply (c : Catalogue σ) : Event σ → Catalogue σ
  | .registered tool => c.register tool
  | .removed name => (c.remove name).2
  | .cleared => c.clear

/-- The catalogue after events, from an empty one on. -/
def applyAll (events : List (Event σ)) : Catalogue σ :=
  events.foldl apply {}

/-- A tool of the name is registered. -/
def Registers (name : String) : Event σ → Prop
  | .registered tool => tool.name = name
  | _ => False

/-- The name is taken out, if it is there. -/
def TakesOut (name : String) : Event σ → Prop
  | .registered _ => False
  | .removed other => other = name
  | .cleared => True

/-- The tool was registered under the name, and since then the name was neither registered anew nor
taken out. -/
def RegisteredLast (name : String) (events : List (Event σ)) (tool : Tool σ) : Prop :=
  tool.name = name ∧ ∃ i : Nat, events[i]? = some (.registered tool) ∧
    ∀ (j : Nat) (e : Event σ), i < j → events[j]? = some e → ¬ e.Registers name ∧ ¬ e.TakesOut name

/-- The name was registered and not taken out since. -/
def Stands (name : String) (events : List (Event σ)) : Prop :=
  ∃ i : Nat, (∃ e, events[i]? = some e ∧ e.Registers name) ∧
    ∀ (j : Nat) (e : Event σ), i < j → events[j]? = some e → ¬ e.TakesOut name

/-- At this place the name was first registered since it was last taken out: it is not taken out
later, and between any earlier registration and this one it is. -/
def EntersAt (name : String) (events : List (Event σ)) (i : Nat) : Prop :=
  (∃ e, events[i]? = some e ∧ e.Registers name) ∧
    (∀ (j : Nat) (e : Event σ), i < j → events[j]? = some e → ¬ e.TakesOut name) ∧
    ∀ (j : Nat) (e : Event σ), j < i → events[j]? = some e → e.Registers name →
      ∃ k e', j < k ∧ k < i ∧ events[k]? = some e' ∧ e'.TakesOut name

variable {events : List (Event σ)} {e : Event σ}

theorem getElem?_concat_eq_some_iff {i : Nat} {x : Event σ} :
    (events ++ [e])[i]? = some x ↔ events[i]? = some x ∨ i = events.length ∧ e = x := by
  rcases Nat.lt_trichotomy i events.length with h | rfl | h
  · rw [List.getElem?_append_left h]
    simp [Nat.ne_of_lt h]
  · simp
  · have hnone : events[i]? = none := List.getElem?_eq_none (Nat.le_of_lt h)
    have hnone' : (events ++ [e])[i]? = none := List.getElem?_eq_none (by simp; omega)
    simp [hnone, hnone', Nat.ne_of_gt h]

theorem lt_length_of_getElem? {i : Nat} {x : Event σ} (h : events[i]? = some x) :
    i < events.length :=
  (List.getElem?_eq_some_iff.mp h).1

/-- What holds of the events after a place of earlier ones and of a further event holds of those
after the place. -/
theorem forall_after_concat_iff {P : Event σ → Prop} {i : Nat} (hi : i < events.length) :
    (∀ (j : Nat) (x : Event σ), i < j → (events ++ [e])[j]? = some x → P x) ↔
      P e ∧ ∀ (j : Nat) (x : Event σ), i < j → events[j]? = some x → P x := by
  simp only [getElem?_concat_eq_some_iff]
  constructor
  · intro h
    exact ⟨h _ e hi (Or.inr ⟨rfl, rfl⟩), fun j x hj hx => h j x hj (Or.inl hx)⟩
  · rintro ⟨he, h⟩ j x hj (hx | ⟨-, rfl⟩)
    · exact h j x hj hx
    · exact he

/-- No event comes after the last. -/
theorem forall_after_last {P : Event σ → Prop} :
    ∀ (j : Nat) (x : Event σ), events.length < j → (events ++ [e])[j]? = some x → P x := by
  intro j x hj hx
  have hlt := lt_length_of_getElem? hx
  rw [List.length_append, List.length_singleton] at hlt
  omega

theorem stands_concat_iff :
    Stands name (events ++ [e]) ↔ e.Registers name ∨ ¬ e.TakesOut name ∧ Stands name events := by
  constructor
  · rintro ⟨i, ⟨x, hx, hregisters⟩, hafter⟩
    rcases getElem?_concat_eq_some_iff.mp hx with hx | ⟨-, rfl⟩
    · obtain ⟨he, hafter⟩ := (forall_after_concat_iff (lt_length_of_getElem? hx)).mp hafter
      exact Or.inr ⟨he, i, ⟨x, hx, hregisters⟩, hafter⟩
    · exact Or.inl hregisters
  · rintro (hregisters | ⟨he, i, ⟨x, hx, hregisters⟩, hafter⟩)
    · exact ⟨events.length, ⟨e, by simp, hregisters⟩, forall_after_last⟩
    · refine ⟨i, ⟨x, getElem?_concat_eq_some_iff.mpr (Or.inl hx), hregisters⟩, ?_⟩
      exact (forall_after_concat_iff (lt_length_of_getElem? hx)).mpr ⟨he, hafter⟩

theorem registeredLast_concat_iff :
    RegisteredLast name (events ++ [e]) tool ↔
      (tool.name = name ∧ e = .registered tool) ∨
        (¬ e.Registers name ∧ ¬ e.TakesOut name) ∧ RegisteredLast name events tool := by
  constructor
  · rintro ⟨hname, i, hx, hafter⟩
    rcases getElem?_concat_eq_some_iff.mp hx with hx | ⟨-, he⟩
    · obtain ⟨he, hafter⟩ := (forall_after_concat_iff (lt_length_of_getElem? hx)).mp hafter
      exact Or.inr ⟨he, hname, i, hx, hafter⟩
    · exact Or.inl ⟨hname, he⟩
  · rintro (⟨hname, rfl⟩ | ⟨he, hname, i, hx, hafter⟩)
    · exact ⟨hname, events.length, by simp, forall_after_last⟩
    · refine ⟨hname, i, getElem?_concat_eq_some_iff.mpr (Or.inl hx), ?_⟩
      exact (forall_after_concat_iff (lt_length_of_getElem? hx)).mpr ⟨he, hafter⟩

/-- A name enters at the last place if it did not stand before, and otherwise keeps its place. -/
theorem entersAt_concat_iff {i : Nat} :
    EntersAt name (events ++ [e]) i ↔
      (i = events.length ∧ e.Registers name ∧ ¬ Stands name events) ∨
        ¬ e.TakesOut name ∧ EntersAt name events i := by
  constructor
  · rintro ⟨⟨x, hx, hregisters⟩, hafter, hbefore⟩
    rcases getElem?_concat_eq_some_iff.mp hx with hx | ⟨rfl, rfl⟩
    · have hi := lt_length_of_getElem? hx
      obtain ⟨he, hafter⟩ := (forall_after_concat_iff hi).mp hafter
      refine Or.inr ⟨he, ⟨x, hx, hregisters⟩, hafter, fun j y hj hy hy' => ?_⟩
      obtain ⟨k, z, hjk, hk, hz, hout⟩ :=
        hbefore j y hj (getElem?_concat_eq_some_iff.mpr (Or.inl hy)) hy'
      rw [List.getElem?_append_left (by omega)] at hz
      exact ⟨k, z, hjk, hk, hz, hout⟩
    · refine Or.inl ⟨rfl, hregisters, ?_⟩
      rintro ⟨j, ⟨y, hy, hy'⟩, hstays⟩
      obtain ⟨k, z, hjk, hk, hz, hout⟩ := hbefore j y (lt_length_of_getElem? hy)
        (getElem?_concat_eq_some_iff.mpr (Or.inl hy)) hy'
      rw [List.getElem?_append_left hk] at hz
      exact hstays k z hjk hz hout
  · rintro (⟨rfl, hregisters, hstands⟩ | ⟨he, ⟨x, hx, hregisters⟩, hafter, hbefore⟩)
    · refine ⟨⟨e, by simp, hregisters⟩, forall_after_last, fun j y hj hy hy' => ?_⟩
      rw [List.getElem?_append_left hj] at hy
      -- the earlier registration was taken back, as the name would stand otherwise
      by_contra hnone
      refine hstands ⟨j, ⟨y, hy, hy'⟩, fun k z hjk hz hout => hnone ?_⟩
      exact ⟨k, z, hjk, lt_length_of_getElem? hz,
        getElem?_concat_eq_some_iff.mpr (Or.inl hz), hout⟩
    · have hi := lt_length_of_getElem? hx
      refine ⟨⟨x, getElem?_concat_eq_some_iff.mpr (Or.inl hx), hregisters⟩,
        (forall_after_concat_iff hi).mpr ⟨he, hafter⟩, fun j y hj hy hy' => ?_⟩
      rw [List.getElem?_append_left (by omega)] at hy
      obtain ⟨k, z, hjk, hk, hz, hout⟩ := hbefore j y hj hy hy'
      exact ⟨k, z, hjk, hk, getElem?_concat_eq_some_iff.mpr (Or.inl hz), hout⟩

-- ---------------------------------------------------------------------------
-- What events make of a catalogue
-- ---------------------------------------------------------------------------

theorem applyAll_concat (events : List (Event σ)) (e : Event σ) :
    applyAll (events ++ [e]) = e.apply (applyAll events) :=
  List.foldl_append

theorem nodup_apply {c : Catalogue σ} (hc : c.names.Nodup) (e : Event σ) :
    (e.apply c).names.Nodup := by
  cases e with
  | registered tool =>
    show (c.register tool).names.Nodup
    rw [names_register]
    split
    · exact hc
    · next hnew =>
      refine List.nodup_append.mpr ⟨hc, List.pairwise_singleton .., fun a ha b hb heq => ?_⟩
      obtain rfl := List.mem_singleton.mp hb
      exact hnew (heq ▸ ha)
  | removed name =>
    show (c.remove name).2.names.Nodup
    rw [names_remove]
    exact hc.erase name
  | cleared => exact List.nodup_nil

theorem nodup_applyAll (events : List (Event σ)) : (applyAll events).names.Nodup := by
  induction events using List.reverseRecOn with
  | nil => exact List.nodup_nil
  | append_singleton events e ih =>
    rw [applyAll_concat]
    exact nodup_apply ih e

/-- The names of the catalogue are those that were registered and not taken out since. -/
theorem mem_names_applyAll_iff :
    name ∈ (applyAll events).names ↔ Stands name events := by
  induction events using List.reverseRecOn with
  | nil => simp [applyAll, names, Stands]
  | append_singleton events e ih =>
    rw [applyAll_concat, stands_concat_iff, ← ih]
    cases e with
    | registered tool =>
      show name ∈ ((applyAll events).register tool).names ↔
        tool.name = name ∨ ¬ False ∧ name ∈ (applyAll events).names
      rw [names_register]
      split
      · next hold =>
        constructor
        · exact fun h => Or.inr ⟨not_false, h⟩
        · rintro (rfl | ⟨-, h⟩)
          · exact hold
          · exact h
      · simp [or_comm, eq_comm]
    | removed other =>
      show name ∈ ((applyAll events).remove other).2.names ↔
        False ∨ ¬ other = name ∧ name ∈ (applyAll events).names
      rw [names_remove, (nodup_applyAll events).mem_erase_iff, false_or, ne_comm]
    | cleared =>
      show name ∈ [] ↔ False ∨ ¬ True ∧ name ∈ (applyAll events).names
      simp

/-- The tool of a name is the one that was registered last under it since the name was taken out. -/
theorem get?_applyAll_eq_some_iff :
    (applyAll events).get? name = some tool ↔ RegisteredLast name events tool := by
  induction events using List.reverseRecOn with
  | nil => simp [applyAll, get?, RegisteredLast]
  | append_singleton events e ih =>
    rw [applyAll_concat, registeredLast_concat_iff, ← ih]
    cases e with
    | registered other =>
      show ((applyAll events).register other).get? name = some tool ↔
        (tool.name = name ∧ Event.registered other = .registered tool) ∨
          (¬ other.name = name ∧ ¬ False) ∧ (applyAll events).get? name = some tool
      rw [get?_register]
      by_cases h : other.name = name
      · rw [if_pos h]
        constructor
        · intro heq
          obtain rfl := Option.some.inj heq
          exact Or.inl ⟨h, rfl⟩
        · rintro (⟨-, heq⟩ | ⟨⟨hne, -⟩, -⟩)
          · rw [Event.registered.inj heq]
          · exact absurd h hne
      · rw [if_neg h]
        constructor
        · exact fun hget => Or.inr ⟨⟨h, not_false⟩, hget⟩
        · rintro (⟨hname, heq⟩ | ⟨-, hget⟩)
          · exact absurd (Event.registered.inj heq ▸ hname) h
          · exact hget
    | removed other =>
      show ((applyAll events).remove other).2.get? name = some tool ↔
        (tool.name = name ∧ Event.removed other = .registered tool) ∨
          (¬ False ∧ ¬ other = name) ∧ (applyAll events).get? name = some tool
      rw [get?_remove (nodup_applyAll events)]
      by_cases h : other = name <;> simp [h]
    | cleared =>
      show none = some tool ↔ (tool.name = name ∧ Event.cleared = .registered tool) ∨
        (¬ False ∧ ¬ True) ∧ (applyAll events).get? name = some tool
      simp

theorem exists_entersAt (h : name ∈ (applyAll events).names) : ∃ i, EntersAt name events i := by
  induction events using List.reverseRecOn with
  | nil => exact absurd h List.not_mem_nil
  | append_singleton events e ih =>
    have hstands := stands_concat_iff.mp (mem_names_applyAll_iff.mp h)
    by_cases hbefore : Stands name events
    · obtain ⟨i, hi⟩ := ih (mem_names_applyAll_iff.mpr hbefore)
      have hstays : ¬ e.TakesOut name := by
        rcases hstands with hregisters | ⟨hstays, -⟩
        · cases e with
          | registered tool => exact not_false
          | removed other => exact absurd hregisters not_false
          | cleared => exact absurd hregisters not_false
        · exact hstays
      exact ⟨i, entersAt_concat_iff.mpr (Or.inr ⟨hstays, hi⟩)⟩
    · have hregisters : e.Registers name := hstands.resolve_right fun h => hbefore h.2
      exact ⟨events.length, entersAt_concat_iff.mpr (Or.inl ⟨rfl, hregisters, hbefore⟩)⟩

theorem EntersAt.lt_length {i : Nat} (h : EntersAt name events i) : i < events.length := by
  obtain ⟨⟨x, hx, -⟩, -⟩ := h
  exact lt_length_of_getElem? hx

theorem EntersAt.stands {i : Nat} (h : EntersAt name events i) : Stands name events :=
  ⟨i, h.1, h.2.1⟩

/-- A name that stands enters where it entered before. -/
theorem EntersAt.of_concat {i : Nat} (h : EntersAt name (events ++ [e]) i)
    (hstands : Stands name events) : EntersAt name events i := by
  rcases entersAt_concat_iff.mp h with ⟨-, -, hnew⟩ | ⟨-, hold⟩
  · exact absurd hstands hnew
  · exact hold

/-- The first name entered before the second. -/
def Precedes (events : List (Event σ)) (a b : String) : Prop :=
  ∀ i j, EntersAt a events i → EntersAt b events j → i < j

/-- The names stand in the order in which they entered. -/
theorem pairwise_names_applyAll (events : List (Event σ)) :
    (applyAll events).names.Pairwise (Precedes events) := by
  induction events using List.reverseRecOn with
  | nil => exact .nil
  | append_singleton events e ih =>
    have hkept : (applyAll events).names.Pairwise (Precedes (events ++ [e])) :=
      ih.imp_of_mem fun ha hb hprecedes i j hi hj =>
        hprecedes i j (hi.of_concat (mem_names_applyAll_iff.mp ha))
          (hj.of_concat (mem_names_applyAll_iff.mp hb))
    rw [applyAll_concat]
    cases e with
    | registered tool =>
      show ((applyAll events).register tool).names.Pairwise _
      rw [names_register]
      split
      · exact hkept
      · next hnew =>
        refine List.pairwise_append.mpr ⟨hkept, List.pairwise_singleton .., ?_⟩
        intro a ha b hb i j hi hj
        obtain rfl := List.mem_singleton.mp hb
        -- the new name enters at the last place, behind all others
        rcases entersAt_concat_iff.mp hj with ⟨rfl, -, -⟩ | ⟨-, hold⟩
        · exact (hi.of_concat (mem_names_applyAll_iff.mp ha)).lt_length
        · exact absurd (mem_names_applyAll_iff.mpr hold.stands) hnew
    | removed name =>
      show ((applyAll events).remove name).2.names.Pairwise _
      rw [names_remove]
      exact hkept.sublist List.erase_sublist
    | cleared => exact .nil

end Event

-- ---------------------------------------------------------------------------
-- Registering several tools
-- ---------------------------------------------------------------------------

theorem extend_append (c : Catalogue σ) (tools others : List (Tool σ)) :
    c.extend (tools ++ others) = (c.extend tools).extend others :=
  List.foldl_append

theorem extend_concat (c : Catalogue σ) (tools : List (Tool σ)) (tool : Tool σ) :
    c.extend (tools ++ [tool]) = (c.extend tools).register tool :=
  List.foldl_append

/-- Of two tools of one name only the second counts. -/
theorem registerIn_registerIn_of_eq {other : Tool σ} (h : other.name = tool.name)
    (tools : List (Tool σ)) :
    registerIn tool (registerIn other tools) = registerIn tool tools := by
  induction tools with
  | nil => simp [registerIn, h]
  | cons first rest ih =>
    by_cases hfirst : first.name = tool.name
    · simp [registerIn, h, hfirst]
    · simp [registerIn, h, hfirst, ih]

/-- A tool whose name is there stays in its place, whatever is registered before under other
names. -/
theorem registerIn_comm {other : Tool σ} (h : other.name ≠ tool.name) {tools : List (Tool σ)}
    (hthere : tool.name ∈ tools.map Tool.name) :
    registerIn tool (registerIn other tools) = registerIn other (registerIn tool tools) := by
  induction tools with
  | nil => exact absurd hthere List.not_mem_nil
  | cons first rest ih =>
    by_cases hfirst : first.name = tool.name
    · simp [registerIn, hfirst, Ne.symm h]
    · have hrest : tool.name ∈ rest.map Tool.name := by
        rcases List.mem_cons.mp hthere with heq | hrest
        · exact absurd heq.symm hfirst
        · exact hrest
      by_cases hother : first.name = other.name
      · simp [registerIn, hother, h]
      · simp [registerIn, hfirst, hother, ih hrest]

theorem register_extend_comm {tools : List (Tool σ)} {c : Catalogue σ}
    (hthere : tool.name ∈ c.names) (hnew : tool.name ∉ tools.map Tool.name) :
    (c.extend tools).register tool = (c.register tool).extend tools := by
  induction tools generalizing c with
  | nil => rfl
  | cons other rest ih =>
    rw [List.map_cons, List.mem_cons, not_or] at hnew
    have hcomm : (c.register other).register tool = (c.register tool).register other :=
      congrArg Catalogue.mk (registerIn_comm (Ne.symm hnew.1) hthere)
    have hthere' : tool.name ∈ (c.register other).names := by
      rw [names_register]
      split
      · exact hthere
      · exact List.mem_append_left _ hthere
    show ((c.register other).extend rest).register tool = ((c.register tool).register other).extend
      rest
    rw [ih hthere' hnew.2, hcomm]

theorem extend_registerIn (c : Catalogue σ) {tools : List (Tool σ)}
    (hnodup : (tools.map Tool.name).Nodup) (tool : Tool σ) :
    c.extend (registerIn tool tools) = (c.extend tools).register tool := by
  induction tools generalizing c with
  | nil => rfl
  | cons other rest ih =>
    rw [List.map_cons, List.nodup_cons] at hnodup
    rw [registerIn]
    by_cases h : other.name = tool.name
    · have hthere : tool.name ∈ (c.register other).names := by
        rw [names_register, h]
        split
        · next hold => exact hold
        · exact List.mem_append_right _ List.mem_cons_self
      have hsame : (c.register other).register tool = c.register tool :=
        congrArg Catalogue.mk (registerIn_registerIn_of_eq h c.tools)
      rw [if_pos h]
      show (c.register tool).extend rest = ((c.register other).extend rest).register tool
      rw [register_extend_comm hthere (h ▸ hnodup.1), hsame]
    · rw [if_neg h]
      exact ih (c.register other) hnodup.2

theorem nodup_ofList (tools : List (Tool σ)) : (ofList tools).names.Nodup := by
  have h : ofList tools = Event.applyAll (tools.map Event.registered) := by
    rw [Event.applyAll, List.foldl_map]
    rfl
  rw [h]
  exact Event.nodup_applyAll _

theorem registerIn_of_not_mem {tools : List (Tool σ)} (h : tool.name ∉ tools.map Tool.name) :
    registerIn tool tools = tools ++ [tool] := by
  induction tools with
  | nil => rfl
  | cons other rest ih =>
    rw [List.map_cons, List.mem_cons, not_or] at h
    rw [registerIn, if_neg (Ne.symm h.1), ih h.2, List.cons_append]

/-- Tools stand in a catalogue as they are given if and only if their names are distinct. -/
theorem tools_ofList_eq_iff {tools : List (Tool σ)} :
    (ofList tools).tools = tools ↔ (tools.map Tool.name).Nodup := by
  constructor
  · intro h
    have hnodup := nodup_ofList tools
    rwa [names, h] at hnodup
  · intro hnodup
    induction tools using List.reverseRecOn with
    | nil => rfl
    | append_singleton tools tool ih =>
      rw [List.map_append, List.nodup_append] at hnodup
      obtain ⟨hnodup, -, hdisjoint⟩ := hnodup
      have hnew : tool.name ∉ tools.map Tool.name := fun hmem =>
        hdisjoint _ hmem _ (List.mem_singleton_self _) rfl
      have hregister : (ofList (tools ++ [tool])).tools = registerIn tool (ofList tools).tools :=
        congrArg Catalogue.tools (extend_concat {} tools tool)
      rw [hregister, ih hnodup, registerIn_of_not_mem hnew]

/-- The name of a tool that is given has one of the tools that are given. -/
theorem exists_get?_ofList {tools : List (Tool σ)} (h : tool ∈ tools) :
    ∃ found ∈ tools, (ofList tools).get? tool.name = some found := by
  induction tools using List.reverseRecOn with
  | nil => exact absurd h List.not_mem_nil
  | append_singleton tools last ih =>
    have hregister : ofList (tools ++ [last]) = (ofList tools).register last :=
      extend_concat {} tools last
    rw [hregister, get?_register]
    by_cases hname : last.name = tool.name
    · exact ⟨last, List.mem_append_right _ (List.mem_singleton_self _), if_pos hname⟩
    · have hmem : tool ∈ tools := by
        rcases List.mem_append.mp h with hmem | hlast
        · exact hmem
        · exact absurd (congrArg Tool.name (List.mem_singleton.mp hlast)).symm hname
      obtain ⟨found, hfound, hget⟩ := ih hmem
      exact ⟨found, List.mem_append_left _ hfound, (if_neg hname).trans hget⟩

/-- Tools that are collected first register the same as they do one by one. -/
theorem extend_ofList (c : Catalogue σ) (tools : List (Tool σ)) :
    c.extend (ofList tools).tools = c.extend tools := by
  induction tools using List.reverseRecOn with
  | nil => rfl
  | append_singleton tools tool ih =>
    have hcollected : ofList (tools ++ [tool]) = (ofList tools).register tool :=
      extend_concat {} tools tool
    rw [hcollected, extend_concat, ← ih]
    exact extend_registerIn c (nodup_ofList tools) tool

-- ---------------------------------------------------------------------------
-- Operations
-- ---------------------------------------------------------------------------

/-- What is done to a catalogue. Registering stands for the catalogue that is changed and for the
changed one that is handed on. -/
inductive Operation (σ : Type) where
  | register (tool : Tool σ)
  | extend (tools : List (Tool σ))
  /-- Register the tools of another catalogue. -/
  | extendBy (other : Catalogue σ)
  /-- Go on with a new catalogue of tools. -/
  | collect (tools : List (Tool σ))
  | remove (name : String)
  | clear

namespace Operation

def apply (c : Catalogue σ) : Operation σ → Catalogue σ
  | .register tool => c.register tool
  | .extend tools => c.extend tools
  | .extendBy other => c.extend other.tools
  | .collect tools => .ofList tools
  | .remove name => (c.remove name).2
  | .clear => c.clear

/-- What the operation comes down to. -/
def events : Operation σ → List (Event σ)
  | .register tool => [.registered tool]
  | .extend tools => tools.map .registered
  | .extendBy other => other.tools.map .registered
  | .collect tools => .cleared :: tools.map .registered
  | .remove name => [.removed name]
  | .clear => [.cleared]

theorem foldl_apply_registered (c : Catalogue σ) (tools : List (Tool σ)) :
    (tools.map Event.registered).foldl Event.apply c = c.extend tools := by
  rw [List.foldl_map]
  rfl

theorem apply_eq (c : Catalogue σ) (operation : Operation σ) :
    operation.apply c = operation.events.foldl Event.apply c := by
  cases operation with
  | register | remove | clear => rfl
  | extend tools => exact (foldl_apply_registered c tools).symm
  | extendBy other => exact (foldl_apply_registered c other.tools).symm
  | collect tools => exact (foldl_apply_registered {} tools).symm

end Operation

/-- The catalogue after operations, from an empty one on. -/
def run (operations : List (Operation σ)) : Catalogue σ :=
  operations.foldl Operation.apply {}

theorem run_eq (operations : List (Operation σ)) :
    run operations = Event.applyAll (operations.flatMap Operation.events) := by
  rw [run, Event.applyAll, List.foldl_flatMap]
  congr 1
  funext c operation
  exact operation.apply_eq c

/-- After any operations the names are distinct. The tool of a name is the one registered last since
the name was last taken out, and there is none if none was. The names stand in the order in which
they were first registered since they were last taken out, each with its tool, so that a tool that
takes the place of another does not move. -/
theorem run_keeps_order (operations : List (Operation σ)) :
    (run operations).names.Nodup ∧
    (∀ name tool, (run operations).get? name = some tool ↔
      Event.RegisteredLast name (operations.flatMap Operation.events) tool) ∧
    (∀ name, name ∈ (run operations).names ↔
      ∃ i, Event.EntersAt name (operations.flatMap Operation.events) i) ∧
    (run operations).names.Pairwise
      (Event.Precedes (operations.flatMap Operation.events)) ∧
    (∀ tool ∈ (run operations).tools, (run operations).get? tool.name = some tool) ∧
    ∀ tool : Tool σ, (run (operations ++ [.register tool])).names =
      if tool.name ∈ (run operations).names then (run operations).names
      else (run operations).names ++ [tool.name] := by
  have hnodup : (run operations).names.Nodup := by
    rw [run_eq]
    exact Event.nodup_applyAll _
  refine ⟨hnodup, fun name tool => ?_, fun name => ?_, ?_, fun tool => get?_of_mem hnodup,
    fun tool => ?_⟩
  · rw [run_eq]
    exact Event.get?_applyAll_eq_some_iff
  · rw [run_eq]
    constructor
    · exact Event.exists_entersAt
    · rintro ⟨i, hi⟩
      exact Event.mem_names_applyAll_iff.mpr hi.stands
  · rw [run_eq]
    exact Event.pairwise_names_applyAll _
  · have hrun : run (operations ++ [.register tool]) = (run operations).register tool :=
      List.foldl_append
    rw [hrun, names_register]

end Catalogue

end Colloquy
