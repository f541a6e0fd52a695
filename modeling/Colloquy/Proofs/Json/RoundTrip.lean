import Colloquy.Proofs.Json.Fields
import Colloquy.Proofs.Json.Numeral
import Colloquy.Proofs.Json.Quoted

/-!
# Colloquy — values read back

A value whose numbers are integers of 64 bits and whose objects have their keys in order
is written as a text that is read as that value, as long as its arrays and objects nest no
deeper than is read (`Json.parse?_render`).

* `Json.Integral` — all numbers in the value are integers of 64 bits.
* `Json.depth` — how deep arrays and objects nest in the value.
-/

namespace Colloquy

namespace Json

mutual

/-- All numbers in the value are integers of 64 bits. -/
def Integral : Json → Prop
  | .int i => FitsInteger i
  | .real _ => False
  | .arr items => IntegralItems items
  | .obj fields => IntegralFields fields
  | _ => True

def IntegralItems : List Json → Prop
  | [] => True
  | v :: rest => Integral v ∧ IntegralItems rest

def IntegralFields : List (String × Json) → Prop
  | [] => True
  | (_, v) :: rest => Integral v ∧ IntegralFields rest

end

mutual

/-- How many arrays and objects stand one in the other. -/
def depth : Json → Nat
  | .arr items => depthItems items + 1
  | .obj fields => depthFields fields + 1
  | _ => 0

def depthItems : List Json → Nat
  | [] => 0
  | v :: rest => max (depth v) (depthItems rest)

def depthFields : List (String × Json) → Nat
  | [] => 0
  | (_, v) :: rest => max (depth v) (depthFields rest)

end

end Json

namespace Json

-- ---------------------------------------------------------------------------
-- The first character
-- ---------------------------------------------------------------------------

theorem skipSpace_cons {c : Char} (hc : isSpace c = false) (s : List Char) :
    skipSpace (c :: s) = c :: s := by
  rw [skipSpace, List.dropWhile_cons_of_neg (by simp [hc])]

/-- No character that starts a numeral stands for anything else. -/
theorem ne_of_startsNumeral {c d : Char} (hc : StartsNumeral c) (hminus : d ≠ '-')
    (hdigit : d.isDigit = false) : c ≠ d := by
  rintro rfl
  obtain rfl | hc := hc
  · exact hminus rfl
  · exact absurd hc (by simp [hdigit])

theorem isSpace_of_startsNumeral {c : Char} (hc : StartsNumeral c) :
    isSpace c = false := by
  have hspace := ne_of_startsNumeral (d := ' ') hc (by decide) (by decide)
  have hfeed := ne_of_startsNumeral (d := '\n') hc (by decide) (by decide)
  have htab := ne_of_startsNumeral (d := '\t') hc (by decide) (by decide)
  have hreturn := ne_of_startsNumeral (d := '\r') hc (by decide) (by decide)
  simp [isSpace, hspace, hfeed, htab, hreturn]

/-- A value is written from its first character on: no blank, and no end of an array. -/
theorem exists_chars_eq_cons {v : Json} (h : v.Integral) :
    ∃ c cs, chars v = c :: cs ∧ isSpace c = false ∧ c ≠ ']' := by
  cases v with
  | null => exact ⟨_, _, rfl, by decide⟩
  | bool b => cases b <;> exact ⟨_, _, rfl, by decide⟩
  | int i =>
    obtain ⟨c, cs, hcs, hc⟩ := exists_intChars_eq_cons i
    exact ⟨c, cs, hcs, isSpace_of_startsNumeral hc, ne_of_startsNumeral hc (by decide) (by decide)⟩
  | real x => exact absurd h id
  | str s => exact ⟨_, _, rfl, by decide⟩
  | arr items => cases items <;> exact ⟨_, _, rfl, by decide⟩
  | obj fields => cases fields <;> exact ⟨_, _, rfl, by decide⟩

theorem skipSpace_chars {v : Json} (h : v.Integral) (rest : List Char) :
    skipSpace (chars v ++ rest) = chars v ++ rest := by
  obtain ⟨c, cs, hcs, hspace, -⟩ := exists_chars_eq_cons h
  rw [hcs, List.cons_append, skipSpace_cons hspace]

theorem head?_chars_append_ne {v : Json} (h : v.Integral) (rest : List Char) :
    (chars v ++ rest).head? ≠ some ']' := by
  obtain ⟨c, cs, hcs, -, hend⟩ := exists_chars_eq_cons h
  simpa [hcs] using hend

-- ---------------------------------------------------------------------------
-- Reading one value
-- ---------------------------------------------------------------------------

variable (fuel d : Nat) (rest : List Char)

theorem value?_numeral {c : Char} (hc : StartsNumeral c) :
    value? (fuel + 1) d (c :: rest) = numeral? (c :: rest) := by
  have hne {e : Char} (hminus : e ≠ '-') (hdigit : e.isDigit = false) {s : List Char}
      (h : c :: rest = e :: s) : False :=
    ne_of_startsNumeral hc hminus hdigit (List.cons.inj h).1
  rw [value?, skipSpace_cons (isSpace_of_startsNumeral hc)]
  split <;> first
    | rfl
    | next h => exact (hne (by decide) (by decide) h).elim

theorem value?_quoted (s : String) :
    value? (fuel + 1) d (quoted s ++ rest) = some (.str s, rest) := by
  have hread := string?_quoted s rest
  rw [quoted, List.cons_append, value?, skipSpace_cons (by decide), List.append_assoc,
    List.singleton_append]
  simp only [hread, Option.map_some]

theorem value?_items {s : List Char} (hspace : skipSpace s = s) (hend : s.head? ≠ some ']')
    {vs : List Json} (hitems : items? fuel d s = some (vs, rest)) :
    value? (fuel + 1) (d + 1) ('[' :: s) = some (.arr vs, rest) := by
  rw [value?, skipSpace_cons (by decide)]
  simp only [hspace]
  split
  · exact absurd rfl hend
  · rw [hitems, Option.map_some]

theorem value?_members {s : List Char} (hspace : skipSpace s = s) (hend : s.head? ≠ some '\x7d')
    {fs : Fields} (hfs : Fields.Ascending fs) (hmembers : members? fuel d s = some (fs, rest)) :
    value? (fuel + 1) (d + 1) ('\x7b' :: s) = some (.obj fs, rest) := by
  rw [value?, skipSpace_cons (by decide)]
  simp only [hspace]
  split
  · exact absurd rfl hend
  · rw [hmembers, Option.map_some]
    simp only [object, Fields.ofList_of_ascending hfs]

variable {fuel d rest}

theorem items?_last {s : List Char} {v : Json}
    (hvalue : value? fuel d s = some (v, ']' :: rest)) :
    items? (fuel + 1) d s = some ([v], rest) := by
  have hskip : skipSpace (']' :: rest) = ']' :: rest := skipSpace_cons (by decide) rest
  simp only [items?, hvalue, Option.bind_eq_bind, Option.bind_some, hskip]

theorem items?_more {s more : List Char} {v : Json} {vs : List Json}
    (hvalue : value? fuel d s = some (v, ',' :: more))
    (hmore : items? fuel d more = some (vs, rest)) :
    items? (fuel + 1) d s = some (v :: vs, rest) := by
  have hskip : skipSpace (',' :: more) = ',' :: more := skipSpace_cons (by decide) more
  simp only [items?, hvalue, Option.bind_eq_bind, Option.bind_some, hskip, hmore]

theorem skipSpace_quoted (key : String) (s : List Char) :
    skipSpace (quoted key ++ s) = '"' :: (key.toList.flatMap escaped ++ '"' :: s) := by
  rw [quoted, List.cons_append, skipSpace_cons (by decide), List.append_assoc,
    List.singleton_append]

theorem members?_last (key : String) {s : List Char} {v : Json}
    (hvalue : value? fuel d s = some (v, '\x7d' :: rest)) :
    members? (fuel + 1) d (quoted key ++ ':' :: s) = some ([(key, v)], rest) := by
  have hcolon : skipSpace (':' :: s) = ':' :: s := skipSpace_cons (by decide) s
  have hskip : skipSpace ('\x7d' :: rest) = '\x7d' :: rest := skipSpace_cons (by decide) rest
  simp only [members?, skipSpace_quoted, string?_quoted, hcolon, hvalue, hskip,
    Option.bind_eq_bind, Option.bind_some]

theorem members?_more (key : String) {s more : List Char} {v : Json} {fs : Fields}
    (hvalue : value? fuel d s = some (v, ',' :: more))
    (hmore : members? fuel d more = some (fs, rest)) :
    members? (fuel + 1) d (quoted key ++ ':' :: s) = some ((key, v) :: fs, rest) := by
  have hcolon : skipSpace (':' :: s) = ':' :: s := skipSpace_cons (by decide) s
  have hskip : skipSpace (',' :: more) = ',' :: more := skipSpace_cons (by decide) more
  simp only [members?, skipSpace_quoted, string?_quoted, hcolon, hvalue, hskip, hmore,
    Option.bind_eq_bind, Option.bind_some]

-- ---------------------------------------------------------------------------
-- Reading what was written
-- ---------------------------------------------------------------------------

theorem endsNumeral_itemChars (vs : List Json) (rest : List Char) :
    EndsNumeral (itemChars vs ++ rest) := by
  cases vs <;> exact endsNumeral_cons (by decide) (by decide) _

theorem endsNumeral_fieldChars (fs : Fields) (rest : List Char) :
    EndsNumeral (fieldChars fs ++ rest) := by
  cases fs <;> exact endsNumeral_cons (by decide) (by decide) _

/-- Two steps for a character leave two for the next one. -/
theorem exists_fuel {c : Char} {cs : List Char} {fuel : Nat}
    (h : 2 * (c :: cs).length ≤ fuel) : ∃ left, fuel = left + 2 ∧ 2 * cs.length ≤ left := by
  rw [List.length_cons] at h
  exact ⟨fuel - 2, by omega, by omega⟩

/-- Inside of what nests there is room for one level less. -/
theorem exists_inner {n d : Nat} (h : n + 1 ≤ d) : ∃ inner, d = inner + 1 ∧ n ≤ inner :=
  ⟨d - 1, by omega, by omega⟩

-- The induction is on the value. What follows the first value of a list is read after that value,
-- so the lemmas about lists are given how it was read, and the first value need not be smaller.
mutual

/-- A value is read from its characters, whatever follows them. -/
theorem value?_chars : ∀ (v : Json) {fuel d : Nat} {rest : List Char}, v.Ordered → v.Integral →
    v.depth ≤ d → EndsNumeral rest → 2 * (chars v).length ≤ fuel →
    value? fuel d (chars v ++ rest) = some (v, rest)
  | .null, fuel, d, rest, _, _, _, _, hfuel => by
    obtain ⟨fuel, rfl, -⟩ := exists_fuel hfuel
    rfl
  | .bool b, fuel, d, rest, _, _, _, _, hfuel => by
    cases b <;> obtain ⟨fuel, rfl, -⟩ := exists_fuel hfuel <;> rfl
  | .int i, fuel, d, rest, _, hi, _, hrest, hfuel => by
    obtain ⟨c, cs, hcs, hc⟩ := exists_intChars_eq_cons i
    have hread := numeral?_intChars hi hrest
    rw [chars, hcs] at hfuel
    obtain ⟨fuel, rfl, -⟩ := exists_fuel hfuel
    rw [hcs, List.cons_append] at hread
    rw [chars, hcs, List.cons_append, value?_numeral _ _ _ hc, hread]
  | .real _, _, _, _, _, hi, _, _, _ => absurd hi id
  | .str s, fuel, d, rest, _, _, _, _, hfuel => by
    obtain ⟨fuel, rfl, -⟩ := exists_fuel hfuel
    exact value?_quoted _ d rest s
  | .arr [], fuel, d, rest, _, _, hd, _, hfuel => by
    obtain ⟨fuel, rfl, -⟩ := exists_fuel hfuel
    obtain ⟨d, rfl, -⟩ := exists_inner hd
    rfl
  | .arr (v :: vs), fuel, d, rest, ⟨hov, hovs⟩, ⟨hiv, hivs⟩, hd, _, hfuel => by
    obtain ⟨d, rfl, hinner⟩ := exists_inner hd
    have hdv : v.depth ≤ d ∧ depthItems vs ≤ d := Nat.max_le.mp hinner
    rw [chars] at hfuel ⊢
    obtain ⟨fuel, rfl, hleft⟩ := exists_fuel hfuel
    rw [List.length_append] at hleft
    have hv : value? fuel d (chars v ++ (itemChars vs ++ rest)) = some (v, itemChars vs ++ rest) :=
      value?_chars v hov hiv hdv.1 (endsNumeral_itemChars vs rest) (by omega)
    have hitems := items?_itemChars vs hovs hivs hdv.2 (by omega) hv
    rw [List.cons_append, List.append_assoc]
    exact value?_items _ d rest (skipSpace_chars hiv _) (head?_chars_append_ne hiv _) hitems
  | .obj [], fuel, d, rest, _, _, hd, _, hfuel => by
    obtain ⟨fuel, rfl, -⟩ := exists_fuel hfuel
    obtain ⟨d, rfl, -⟩ := exists_inner hd
    rfl
  | .obj ((k, v) :: fs), fuel, d, rest, ⟨hkeys, hov, hofs⟩, ⟨hiv, hifs⟩, hd, _, hfuel => by
    obtain ⟨d, rfl, hinner⟩ := exists_inner hd
    have hdv : v.depth ≤ d ∧ depthFields fs ≤ d := Nat.max_le.mp hinner
    rw [chars] at hfuel ⊢
    obtain ⟨fuel, rfl, hleft⟩ := exists_fuel hfuel
    rw [List.length_append, List.length_cons, List.length_append] at hleft
    have hv : value? fuel d (chars v ++ (fieldChars fs ++ rest)) =
        some (v, fieldChars fs ++ rest) :=
      value?_chars v hov hiv hdv.1 (endsNumeral_fieldChars fs rest) (by omega)
    have hmembers := members?_fieldChars fs k hofs hifs hdv.2 (by omega) hv
    rw [List.cons_append, List.append_assoc, List.cons_append, List.append_assoc]
    refine value?_members _ d rest ?_ ?_ hkeys hmembers
    · rw [skipSpace_quoted, quoted, List.cons_append, List.append_assoc, List.singleton_append]
    · rw [quoted]
      simp

/-- The items after a first one are read up to the end of the array. -/
theorem items?_itemChars : ∀ (vs : List Json) {v : Json} {s : List Char} {fuel d : Nat}
    {rest : List Char}, OrderedItems vs → IntegralItems vs → depthItems vs ≤ d →
    2 * (itemChars vs).length ≤ fuel →
    value? fuel d s = some (v, itemChars vs ++ rest) →
    items? (fuel + 1) d s = some (v :: vs, rest)
  | [], _, _, _, _, _, _, _, _, _, hv => items?_last hv
  | w :: ws, v, s, fuel, d, rest, ⟨how, hows⟩, ⟨hiw, hiws⟩, hd, hfuel, hv => by
    have hdw : w.depth ≤ d ∧ depthItems ws ≤ d := Nat.max_le.mp hd
    rw [itemChars] at hfuel hv
    obtain ⟨fuel, rfl, hleft⟩ := exists_fuel hfuel
    rw [List.length_append] at hleft
    have hw : value? (fuel + 1) d (chars w ++ (itemChars ws ++ rest)) =
        some (w, itemChars ws ++ rest) :=
      value?_chars w how hiw hdw.1 (endsNumeral_itemChars ws rest) (by omega)
    rw [List.cons_append, List.append_assoc] at hv
    exact items?_more hv (items?_itemChars ws hows hiws hdw.2 (by omega) hw)

/-- The fields after a first one are read up to the end of the object. -/
theorem members?_fieldChars : ∀ (fs : Fields) (key : String) {v : Json} {s : List Char}
    {fuel d : Nat} {rest : List Char}, OrderedFields fs → IntegralFields fs →
    depthFields fs ≤ d → 2 * (fieldChars fs).length ≤ fuel →
    value? fuel d s = some (v, fieldChars fs ++ rest) →
    members? (fuel + 1) d (quoted key ++ ':' :: s) = some ((key, v) :: fs, rest)
  | [], key, _, _, _, _, _, _, _, _, _, hv => members?_last key hv
  | (k, w) :: fs, key, v, s, fuel, d, rest, ⟨how, hofs⟩, ⟨hiw, hifs⟩, hd, hfuel, hv => by
    have hdw : w.depth ≤ d ∧ depthFields fs ≤ d := Nat.max_le.mp hd
    rw [fieldChars] at hfuel hv
    obtain ⟨fuel, rfl, hleft⟩ := exists_fuel hfuel
    rw [List.length_append, List.length_cons, List.length_append] at hleft
    have hw : value? (fuel + 1) d (chars w ++ (fieldChars fs ++ rest)) =
        some (w, fieldChars fs ++ rest) :=
      value?_chars w how hiw hdw.1 (endsNumeral_fieldChars fs rest) (by omega)
    rw [List.cons_append, List.append_assoc, List.cons_append, List.append_assoc] at hv
    exact members?_more key hv (members?_fieldChars fs k hofs hifs hdw.2 (by omega) hw)

end

/-- A value of integers that nests as deep as is read is the value of its text. -/
theorem parse?_render {v : Json} (ho : v.Ordered) (hi : v.Integral)
    (hd : v.depth ≤ greatestDepth) : parse? v.render = some v := by
  have hread : value? (2 * (chars v).length + 2) greatestDepth (chars v ++ []) = some (v, []) :=
    value?_chars v ho hi hd endsNumeral_nil (by omega)
  rw [List.append_nil] at hread
  rw [parse?, render, String.toList_ofList, parseChars?, hread]
  rfl

end Json

end Colloquy
