import Colloquy.Directive.Filter

/-!
# Colloquy — laws of the filters

Once everything up to the last marker is dropped, no marker is left; where there is none,
nothing is dropped. What stands before a marker makes no difference (`clear_append`). Every
message that is not dropped by the cleaning survives it again.
-/

namespace Colloquy

theorem afterLast?_eq_none_iff {marker : Role} {messages : List Message} :
    afterLast? marker messages = none ↔ ∀ m ∈ messages, m.role ≠ marker := by
  induction messages with
  | nil => exact iff_of_true rfl (List.forall_mem_nil _)
  | cons m rest ih =>
    rw [List.forall_mem_cons, ← ih, afterLast?]
    cases afterLast? marker rest with
    | some after => exact iff_of_false nofun fun h => absurd h.2 nofun
    | none =>
      by_cases hrole : m.role = marker
      · rw [if_pos hrole]
        exact iff_of_false nofun fun h => h.1 hrole
      · rw [if_neg hrole]
        exact iff_of_true rfl ⟨hrole, rfl⟩

theorem role_ne_of_mem_afterLast? {marker : Role} {messages after : List Message}
    (h : afterLast? marker messages = some after) : ∀ m ∈ after, m.role ≠ marker := by
  induction messages with
  | nil => exact absurd h nofun
  | cons m rest ih =>
    rw [afterLast?] at h
    split at h
    · next hrest =>
      obtain rfl := Option.some.inj h
      exact ih hrest
    · next hrest =>
      split at h
      · obtain rfl := Option.some.inj h
        exact afterLast?_eq_none_iff.mp hrest
      · exact absurd h nofun

theorem role_ne_of_mem_clear {marker : Role} {messages : List Message} :
    ∀ m ∈ clear marker messages, m.role ≠ marker := by
  unfold clear
  cases h : afterLast? marker messages with
  | none => exact afterLast?_eq_none_iff.mp h
  | some after => exact role_ne_of_mem_afterLast? h

theorem afterLast?_suffix {marker : Role} {messages after : List Message}
    (h : afterLast? marker messages = some after) : after <:+ messages := by
  induction messages with
  | nil => exact absurd h nofun
  | cons m rest ih =>
    rw [afterLast?] at h
    split at h
    · next hrest =>
      obtain rfl := Option.some.inj h
      exact (ih hrest).trans (List.suffix_cons m rest)
    · split at h
      · obtain rfl := Option.some.inj h
        exact List.suffix_cons m rest
      · exact absurd h nofun

theorem clear_suffix (marker : Role) (messages : List Message) :
    clear marker messages <:+ messages := by
  unfold clear
  cases h : afterLast? marker messages with
  | none => exact List.suffix_refl messages
  | some after => exact afterLast?_suffix h

theorem clear_of_forall_ne {marker : Role} {messages : List Message}
    (h : ∀ m ∈ messages, m.role ≠ marker) : clear marker messages = messages := by
  rw [clear, afterLast?_eq_none_iff.mpr h]
  rfl

/-- The last marker of all is the last one after any marker, or else that marker. -/
theorem afterLast?_append {marker : Role} {m : Message} (h : m.role = marker)
    (before after : List Message) :
    afterLast? marker (before ++ m :: after) = some ((afterLast? marker after).getD after) := by
  induction before with
  | nil =>
    rw [List.nil_append, afterLast?, if_pos h]
    cases afterLast? marker after <;> rfl
  | cons first before ih => rw [List.cons_append, afterLast?, ih]

/-- What stands before a marker is dropped with it, whatever markers stand after it. -/
theorem clear_append {marker : Role} {m : Message} (h : m.role = marker)
    (before after : List Message) :
    clear marker (before ++ m :: after) = clear marker after := by
  rw [clear, afterLast?_append h, Option.getD_some, clear]

theorem role_ne_of_survives {skipRole : Role} {m : Message} (h : survives skipRole m = true) :
    m.role ≠ skipRole := by
  unfold survives at h
  simp only [Bool.and_eq_true, bne_iff_ne] at h
  exact h.1

/-- A message that says something survives, unless it is to be skipped. -/
theorem survives_of_not_isEmpty {skipRole : Role} {m : Message} (hrole : m.role ≠ skipRole)
    (h : m.isEmpty = false) : survives skipRole m = true := by
  simp [survives, hrole, h]

theorem mem_clean_iff {skipRole : Role} {messages : List Message} {m : Message} :
    m ∈ clean skipRole messages ↔ m ∈ messages ∧ survives skipRole m = true :=
  List.mem_filter

theorem mem_purge_iff {messages : List Message} {m : Message} :
    m ∈ purge messages ↔ m ∈ messages ∧ m.role ≠ .previousResponseId := by
  simp [purge]

theorem purge_cons_of_marker {m : Message} (h : m.role = .previousResponseId)
    (rest : List Message) : purge (m :: rest) = purge rest := by
  simp [purge, h]

theorem purge_cons_of_ne {m : Message} (h : m.role ≠ .previousResponseId)
    (rest : List Message) : purge (m :: rest) = m :: purge rest := by
  simp [purge, h]

end Colloquy
