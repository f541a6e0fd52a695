import Colloquy.Proofs.Markup.Line

/-!
# Colloquy — tags of elements

A line may open an element at its start (`elementOpen?_eq_some_iff`) and close elements
anywhere. While an element is open, the lines that matter are those with tags of its own
name: a line that is nothing but an opening tag goes one element deeper
(`OpensElement.trackElements_eq`), a closing tag alone comes back from there
(`trackElements_closingTag`), and a line without such tags stays
(`HasNoTag.trackElements_eq`). Lines that go down and up again leave open what was open
(`Nested.openElements_eq`), and without a closing tag of its name the element is never
closed (`exists_openElements_eq`).
-/

namespace Colloquy.Markup

open Text

-- ---------------------------------------------------------------------------
-- Tags
-- ---------------------------------------------------------------------------

/-- A name that an element may have. -/
structure IsName (name : List Char) : Prop where
  nonempty : name ≠ []
  wordChars : ∀ c ∈ name, isWordChar c = true

/-- The opening tag of an element without attributes. -/
def openingTag (name : List Char) : List Char :=
  '<' :: (name ++ ['>'])

def closingTag (name : List Char) : List Char :=
  '<' :: '/' :: (name ++ ['>'])

namespace IsName

variable {name : List Char}

theorem not_mem (h : IsName name) {c : Char} (hc : isWordChar c = false) : c ∉ name := by
  intro hm
  rw [h.wordChars c hm] at hc
  exact absurd hc (by simp)

theorem takeWhile_append (h : IsName name) {c : Char} (hc : isWordChar c = false)
    (rest : List Char) : (name ++ c :: rest).takeWhile isWordChar = name := by
  rw [List.takeWhile_append_of_pos h.wordChars, List.takeWhile_cons_of_neg (by simp [hc]),
    List.append_nil]

theorem dropWhile_append (h : IsName name) {c : Char} (hc : isWordChar c = false)
    (rest : List Char) : (name ++ c :: rest).dropWhile isWordChar = c :: rest := by
  rw [List.dropWhile_append_of_pos h.wordChars, List.dropWhile_cons_of_neg (by simp [hc])]

end IsName

/-- An element that a line opens has a name, which follows the angle bracket. -/
theorem name_of_elementOpen? {t name after : List Char} (h : elementOpen? t = some (name, after)) :
    IsName name ∧ '<' :: name <+: t := by
  unfold elementOpen? at h
  split at h
  · next rest =>
    dsimp only at h
    split at h
    · simp at h
    · next hne =>
      obtain ⟨after', -, hpair⟩ := Option.map_eq_some_iff.mp h
      obtain ⟨rfl, -⟩ := Prod.mk.inj hpair
      refine ⟨⟨by simpa using hne, fun c hc => List.mem_takeWhile_imp hc⟩, ?_⟩
      exact List.cons_prefix_cons.mpr ⟨rfl, List.takeWhile_prefix isWordChar⟩
  · simp at h

/-- The marks of a tag belong to no name. -/
theorem not_isWordChar_mark {c : Char} (h : c ∈ ['<', '/', '>']) : isWordChar c = false := by
  have hall : (['<', '/', '>'].all fun c => !isWordChar c) = true := by decide +kernel
  simpa using List.all_eq_true.mp hall c h

/-- No blank belongs to a name. -/
theorem not_isWordChar_of_isBlank {c : Char} (h : isBlank c = true) : isWordChar c = false := by
  have hall : ∀ n ∈ blankCodes, isWordChar (Char.ofNat n) = false := by decide +kernel
  have hc := hall c.toNat (toNat_mem_blankCodes h)
  rwa [Char.ofNat_toNat] at hc

/-- The text starts with an opening tag: a name, attributes that a blank sets off from it, and after
the tag the rest. -/
structure LeadsWithTag (name attributes after t : List Char) : Prop where
  isName : IsName name
  setOff : ∀ c ∈ attributes.head?, isBlank c = true
  bounded : '>' ∉ attributes
  eq : t = '<' :: (name ++ (attributes ++ '>' :: after))

theorem afterName?_of_isBlank {c : Char} (hc : isBlank c = true) (rest : List Char) :
    afterName? (c :: rest) = (cut? ['>'] rest).map Prod.snd := by
  unfold afterName?
  split
  · next heq =>
    obtain ⟨rfl, -⟩ := List.cons.inj heq
    exact absurd hc (by decide)
  · next heq =>
    obtain ⟨rfl, rfl⟩ := List.cons.inj heq
    rw [if_pos hc]
  · next heq => exact absurd heq (List.cons_ne_nil _ _)

theorem afterName?_eq_some_iff {s after : List Char} :
    afterName? s = some after ↔
      ∃ attributes, (∀ c ∈ attributes.head?, isBlank c = true) ∧ '>' ∉ attributes ∧
        s = attributes ++ '>' :: after := by
  constructor
  · intro h
    unfold afterName? at h
    split at h
    · obtain rfl := Option.some.inj h
      exact ⟨[], by simp, List.not_mem_nil, rfl⟩
    · next c rest hne =>
      split at h
      · next hc =>
        obtain ⟨⟨b, a⟩, hcut, rfl⟩ := Option.map_eq_some_iff.mp h
        refine ⟨c :: b, by simpa using hc, ?_, ?_⟩
        · refine List.not_mem_cons_of_ne_of_not_mem (fun heq => ?_) (not_mem_of_cut? hcut)
          exact hne heq.symm
        · rw [eq_of_cut? hcut, List.append_assoc]
          rfl
      · simp at h
    · simp at h
  · rintro ⟨attributes, hsetOff, hbounded, rfl⟩
    cases attributes with
    | nil => rfl
    | cons c attributes =>
      rw [List.mem_cons, not_or] at hbounded
      have hcut : cut? ['>'] (attributes ++ '>' :: after) = some (attributes, after) :=
        cut?_append hbounded.2 [] after
      rw [List.cons_append, afterName?_of_isBlank (hsetOff c rfl), hcut]
      rfl

/-- A text that opens an element starts with its tag. -/
theorem elementOpen?_eq_some_iff {t name after : List Char} :
    elementOpen? t = some (name, after) ↔ ∃ attributes, LeadsWithTag name attributes after t := by
  constructor
  · intro h
    have hname := (name_of_elementOpen? h).1
    unfold elementOpen? at h
    split at h
    · next rest =>
      dsimp only at h
      split at h
      · simp at h
      · obtain ⟨after', hafter, hpair⟩ := Option.map_eq_some_iff.mp h
        obtain ⟨rfl, rfl⟩ := Prod.mk.inj hpair
        obtain ⟨attributes, hsetOff, hbounded, hrest⟩ := afterName?_eq_some_iff.mp hafter
        refine ⟨attributes, hname, hsetOff, hbounded, ?_⟩
        rw [← hrest, List.takeWhile_append_dropWhile]
    · simp at h
  · rintro ⟨attributes, hname, hsetOff, hbounded, rfl⟩
    -- what follows the name is no word character
    obtain ⟨c, r, hcr, hc⟩ : ∃ c r, attributes ++ '>' :: after = c :: r ∧ isWordChar c = false := by
      cases attributes with
      | nil => exact ⟨'>', after, rfl, not_isWordChar_mark (by decide)⟩
      | cons c attributes => exact ⟨c, _, rfl, not_isWordChar_of_isBlank (hsetOff c rfl)⟩
    have hafter : afterName? (attributes ++ '>' :: after) = some after :=
      afterName?_eq_some_iff.mpr ⟨attributes, hsetOff, hbounded, rfl⟩
    have hne : name.isEmpty = false := by simpa using hname.nonempty
    rw [hcr] at hafter ⊢
    rw [elementOpen?, hname.takeWhile_append hc, hname.dropWhile_append hc, hne, hafter]
    rfl

/-- After a character other than a slash, an angle bracket is no part of a mark of an element without
content. -/
theorem selfClosing_suffix_iff {p after : List Char} (h : p.getLast? ≠ some '/') :
    ['/', '>'] <:+ p ++ '>' :: after ↔ ['/', '>'] <:+ after := by
  constructor
  · rintro ⟨u, hu⟩
    rcases List.append_eq_append_iff.mp hu with ⟨v, rfl, hv⟩ | ⟨v, rfl, hv⟩
    · match v with
      | [] => simp at hv
      | [c] =>
        obtain ⟨rfl, -⟩ := List.cons.inj hv
        exact absurd List.getLast?_concat h
      | _ :: _ :: _ => simp at hv
    · match v with
      | [] => simp at hv
      | c :: v => exact ⟨v, (List.cons.inj hv).2.symm⟩
  · exact fun hafter => hafter.trans ⟨p ++ ['>'], by simp⟩

/-- Whether a line ends in the mark of an element without content is up to what follows its leading
tag, unless the tag itself ends so. -/
theorem LeadsWithTag.isSelfClosing_iff {name attributes after t : List Char}
    (h : LeadsWithTag name attributes after t) (hself : attributes.getLast? ≠ some '/') :
    isSelfClosing t = true ↔ ['/', '>'] <:+ after := by
  have hlast : ('<' :: (name ++ attributes)).getLast? ≠ some '/' := by
    intro hlast
    -- the slash would be the last character of the attributes, or else of the name
    rw [List.getLast?_cons, List.getLast?_append] at hlast
    cases hattributes : attributes.getLast? with
    | some c =>
      rw [hattributes] at hself
      exact hself (by simpa [hattributes] using hlast)
    | none =>
      obtain ⟨c, hc⟩ := Option.isSome_iff_exists.mp (List.getLast?_isSome.mpr h.isName.nonempty)
      have hslash : c = '/' := by simpa [hattributes, hc] using hlast
      have hword := h.isName.wordChars c (List.mem_of_getLast? hc)
      rw [hslash, not_isWordChar_mark (by decide)] at hword
      exact absurd hword (by decide)
  have ht : t = ('<' :: (name ++ attributes)) ++ '>' :: after := by rw [h.eq]; simp
  rw [isSelfClosing, List.isSuffixOf_iff_suffix, ht]
  exact selfClosing_suffix_iff hlast

theorem elementOpen?_openingTag {name : List Char} (h : IsName name) :
    elementOpen? (openingTag name) = some (name, []) := by
  have hend : isWordChar '>' = false := not_isWordChar_mark (by decide)
  have hne : name.isEmpty = false := by simpa using h.nonempty
  rw [openingTag, elementOpen?, h.takeWhile_append hend, h.dropWhile_append hend, hne]
  rfl

/-- A tag that ends in its name has no slash before its end. -/
theorem isSelfClosing_openingTag {name : List Char} (h : IsName name) :
    isSelfClosing (openingTag name) = false := by
  rw [Bool.eq_false_iff]
  intro hself
  obtain ⟨u, hu⟩ := List.isSuffixOf_iff_suffix.mp hself
  have hslash : '/' ∈ '<' :: name := by
    rw [openingTag, ← List.cons_append, List.append_cons u] at hu
    rw [← List.append_inj_left' hu rfl]
    simp
  rcases List.mem_cons.mp hslash with heq | hm
  · exact absurd heq (by decide)
  · exact h.not_mem (not_isWordChar_mark (by decide)) hm

theorem elementOpen?_closingTag (name : List Char) : elementOpen? (closingTag name) = none := by
  have hslash : isWordChar '/' = false := not_isWordChar_mark (by decide)
  rw [closingTag, elementOpen?, List.takeWhile_cons_of_neg (by simp [hslash])]
  rfl

theorem closingNames_eq_nil {s : List Char} (h : '<' ∉ s) : closingNames s = [] := by
  induction s with
  | nil => rfl
  | cons c s ih =>
    rw [List.mem_cons, not_or] at h
    have hnone : closingName? (c :: s) = none := by
      unfold closingName?
      split
      · next heq => exact absurd (List.cons.inj heq).1.symm h.1
      · rfl
    rw [closingNames, hnone]
    exact ih h.2

theorem closingTag_prefix_of_closingName? {name s : List Char} (h : closingName? s = some name) :
    closingTag name <+: s := by
  unfold closingName? at h
  split at h
  · next rest =>
    have hsplit := List.takeWhile_append_dropWhile (p := isWordChar) (l := rest)
    dsimp only at h
    split at h
    · simp at h
    · next more hdrop _ =>
      obtain rfl := Option.some.inj h
      refine ⟨more, ?_⟩
      conv_rhs => rw [← hsplit, hdrop]
      simp [closingTag]
    · simp at h
  · simp at h

theorem closingName?_eq_some_iff {name s : List Char} (h : IsName name) :
    closingName? s = some name ↔ closingTag name <+: s := by
  refine ⟨closingTag_prefix_of_closingName?, ?_⟩
  rintro ⟨rest, rfl⟩
  have hend : isWordChar '>' = false := not_isWordChar_mark (by decide)
  obtain ⟨c, r, rfl⟩ := List.exists_cons_of_ne_nil h.nonempty
  rw [closingTag, List.cons_append, List.cons_append, List.append_assoc, List.singleton_append,
    closingName?, h.takeWhile_append hend, h.dropWhile_append hend]
  rfl

theorem closingNames_closingTag {name : List Char} (h : IsName name) :
    closingNames (closingTag name) = [name] := by
  have hname : closingName? (closingTag name) = some name :=
    (closingName?_eq_some_iff h).mpr List.prefix_rfl
  have hrest : '<' ∉ '/' :: (name ++ ['>']) := by
    have hbracket : isWordChar '<' = false := not_isWordChar_mark (by decide)
    simp [h.not_mem hbracket]
  rw [closingTag] at hname ⊢
  rw [closingNames, hname]
  dsimp only
  rw [closingNames_eq_nil hrest]

theorem infix_of_mem_closingNames {name s : List Char} (h : name ∈ closingNames s) :
    closingTag name <:+: s := by
  induction s with
  | nil => exact absurd h List.not_mem_nil
  | cons c s ih =>
    rw [closingNames] at h
    split at h
    · next found hfound =>
      rcases List.mem_cons.mp h with rfl | h
      · exact (closingTag_prefix_of_closingName? hfound).isInfix
      · exact List.infix_cons (ih h)
    · exact List.infix_cons (ih h)

theorem closeNames_of_not_mem {name : List Char} {stack names : List (List Char)}
    (h : name ∉ names) : closeNames (name :: stack) names = name :: stack := by
  induction names with
  | nil => rfl
  | cons n names ih =>
    rw [List.mem_cons, not_or] at h
    show closeNames (if name = n then stack else name :: stack) names = _
    rw [if_neg h.1]
    exact ih h.2

-- ---------------------------------------------------------------------------
-- Lines inside an element
-- ---------------------------------------------------------------------------

/-- What follows the tag of the name that a line starts with. A line that ends in the mark of an
element without content opens none. -/
def afterOpening? (name line : List Char) : Option (List Char) :=
  match elementOpen? (trim line) with
  | some (opened, after) =>
    if opened = name && !isSelfClosing (trim line) then some after else none
  | none => none

theorem afterOpening?_eq_some_iff {name line after : List Char} :
    afterOpening? name line = some after ↔
      elementOpen? (trim line) = some (name, after) ∧ isSelfClosing (trim line) = false := by
  rw [afterOpening?]
  cases elementOpen? (trim line) with
  | none => simp
  | some element =>
    rw [Option.some.injEq, Prod.ext_iff, and_right_comm]
    simp

/-- What follows the tag stands in the line after it. -/
theorem infix_of_afterOpening? {name line after : List Char}
    (h : afterOpening? name line = some after) : after <:+: trim line := by
  obtain ⟨attributes, htag⟩ := elementOpen?_eq_some_iff.mp (afterOpening?_eq_some_iff.mp h).1
  rw [htag.eq]
  exact ⟨'<' :: (name ++ (attributes ++ ['>'])), [], by simp⟩

/-- Inside an element only tags of its name count: one that the line starts with, and the closing
tags after it or, if it starts with none, on all of the line. -/
theorem trackElements_cons (name line : List Char) (stack : List (List Char)) :
    trackElements (name :: stack) (trim line) =
      match afterOpening? name line with
      | some after => closeNames (name :: name :: stack) (closingNames after)
      | none => closeNames (name :: stack) (closingNames (trim line)) := by
  unfold trackElements afterOpening?
  cases elementOpen? (trim line) with
  | none => rfl
  | some element =>
    obtain ⟨opened, after⟩ := element
    by_cases hopened : opened = name
    · subst hopened
      cases isSelfClosing (trim line) <;> simp
    · simp [hopened, Ne.symm hopened]

/-- The line is nothing but an opening tag of the element, with or without attributes. -/
structure OpensElement (name line : List Char) : Prop where
  opens : elementOpen? (trim line) = some (name, [])
  stays : isSelfClosing (trim line) = false

/-- The line has no tag of the element: it opens none of that name which has a content, and closes
none. -/
structure HasNoTag (name line : List Char) : Prop where
  opens : ∀ after, elementOpen? (trim line) = some (name, after) → isSelfClosing (trim line) = true
  closes : name ∉ closingNames (trim line)

section Lines

variable {name line : List Char} {stack : List (List Char)}

theorem OpensElement.isName (h : OpensElement name line) : IsName name :=
  (name_of_elementOpen? h.opens).1

theorem opensElement_of_trim_eq (h : IsName name) (hline : trim line = openingTag name) :
    OpensElement name line where
  opens := by rw [hline, elementOpen?_openingTag h]
  stays := by rw [hline, isSelfClosing_openingTag h]

/-- A line in which neither kind of tag of the element occurs has none. -/
theorem hasNoTag_of_no_occurrence (hopening : ¬ '<' :: name <:+: line)
    (hclosing : ¬ closingTag name <:+: line) : HasNoTag name line := by
  obtain ⟨a, b, -, -, hline⟩ := exists_eq_append_trim line
  have hpart : trim line <:+: line := ⟨a, b, hline.symm⟩
  refine ⟨fun after hopen => absurd ?_ hopening, fun hclose => hclosing ?_⟩
  · exact (name_of_elementOpen? hopen).2.isInfix.trans hpart
  · exact (infix_of_mem_closingNames hclose).trans hpart

theorem OpensElement.trackElements_eq (h : OpensElement name line) :
    trackElements (name :: stack) (trim line) = name :: name :: stack := by
  rw [trackElements_cons, afterOpening?_eq_some_iff.mpr ⟨h.opens, h.stays⟩]
  rfl

theorem HasNoTag.trackElements_eq (h : HasNoTag name line) :
    trackElements (name :: stack) (trim line) = name :: stack := by
  have hnone : afterOpening? name line = none := by
    rw [Option.eq_none_iff_forall_ne_some]
    intro after hafter
    obtain ⟨hopen, hstays⟩ := afterOpening?_eq_some_iff.mp hafter
    rw [h.opens after hopen] at hstays
    exact absurd hstays (by simp)
  rw [trackElements_cons, hnone]
  exact closeNames_of_not_mem h.closes

theorem trackElements_closingTag (h : IsName name) :
    trackElements (name :: stack) (closingTag name) = stack := by
  rw [trackElements, elementOpen?_closingTag]
  dsimp only
  rw [closingNames_closingTag h]
  simp [closeNames]

end Lines

-- ---------------------------------------------------------------------------
-- Nesting
-- ---------------------------------------------------------------------------

/-- The open elements after lines inside an element. -/
def openElements (stack ls : List (List Char)) : List (List Char) :=
  ls.foldl (fun stack line => trackElements stack (trim line)) stack

theorem closeNames_of_no_closingTag {name s : List Char} (h : ¬ closingTag name <:+: s)
    (stack : List (List Char)) :
    closeNames (name :: stack) (closingNames s) = name :: stack :=
  closeNames_of_not_mem fun hmem => h (infix_of_mem_closingNames hmem)

/-- Inside elements of one name, a line without a closing tag of theirs closes none and opens at
most one more. -/
theorem exists_trackElements_eq {name line : List Char} (h : ¬ closingTag name <:+: line)
    (depth : Nat) :
    ∃ depth', trackElements (List.replicate (depth + 1) name) (trim line) =
      List.replicate (depth' + 1) name := by
  obtain ⟨a, b, -, -, hline⟩ := exists_eq_append_trim line
  have htrim : ¬ closingTag name <:+: trim line := fun hc => h (hc.trans ⟨a, b, hline.symm⟩)
  rw [List.replicate_succ, trackElements_cons]
  cases hopen : afterOpening? name line with
  | none => exact ⟨depth, closeNames_of_no_closingTag htrim _⟩
  | some after =>
    have hafter : ¬ closingTag name <:+: after :=
      fun hc => htrim (hc.trans (infix_of_afterOpening? hopen))
    exact ⟨depth + 1, closeNames_of_no_closingTag hafter _⟩

/-- Lines without a closing tag of its name leave an element open. -/
theorem exists_openElements_eq {name : List Char} {ls : List (List Char)}
    (h : ∀ line ∈ ls, ¬ closingTag name <:+: line) (depth : Nat) :
    ∃ depth', openElements (List.replicate (depth + 1) name) ls =
      List.replicate (depth' + 1) name := by
  induction ls generalizing depth with
  | nil => exact ⟨depth, rfl⟩
  | cons line ls ih =>
    rw [List.forall_mem_cons] at h
    obtain ⟨mid, hmid⟩ := exists_trackElements_eq h.1 depth
    obtain ⟨depth', hdepth⟩ := ih h.2 mid
    refine ⟨depth', ?_⟩
    rw [← hdepth, openElements, List.foldl_cons, hmid]
    rfl

/-- Lines inside an element, from one depth of elements of its name to another: tags of the name
stand alone on their lines, and none closes the element itself. -/
inductive Nested (name : List Char) : Nat → List (List Char) → Nat → Prop
  | nil (depth : Nat) : Nested name depth [] depth
  | plain {depth depth' : Nat} {line : List Char} {ls : List (List Char)}
      (h : HasNoTag name line) (rest : Nested name depth ls depth') :
      Nested name depth (line :: ls) depth'
  | opening {depth depth' : Nat} {line : List Char} {ls : List (List Char)}
      (h : OpensElement name line) (rest : Nested name (depth + 1) ls depth') :
      Nested name depth (line :: ls) depth'
  | closing {depth depth' : Nat} {line : List Char} {ls : List (List Char)}
      (h : trim line = closingTag name) (rest : Nested name depth ls depth') :
      Nested name (depth + 1) (line :: ls) depth'

namespace Nested

variable {name : List Char} {depth depth' : Nat} {ls : List (List Char)}

/-- At each depth as many elements are open, and the one around them all. -/
theorem openElements_eq (h : Nested name depth ls depth') (hname : IsName name) :
    openElements (List.replicate (depth + 1) name) ls = List.replicate (depth' + 1) name := by
  induction h with
  | nil depth => rfl
  | plain hline _ ih =>
    rw [← ih, openElements, List.foldl_cons, List.replicate_succ, hline.trackElements_eq]
    rfl
  | opening hline _ ih =>
    rw [← ih, openElements, List.foldl_cons, List.replicate_succ, hline.trackElements_eq]
    rfl
  | closing hline _ ih =>
    rw [← ih, openElements, List.foldl_cons, List.replicate_succ, hline,
      trackElements_closingTag hname]
    rfl

theorem exists_of_prefix (h : Nested name depth ls depth') {before : List (List Char)}
    (hbefore : before <+: ls) : ∃ depth₁, Nested name depth before depth₁ := by
  induction h generalizing before with
  | nil depth =>
    rw [List.prefix_nil.mp hbefore]
    exact ⟨depth, .nil depth⟩
  | plain hline _ ih =>
    rcases List.prefix_cons_iff.mp hbefore with rfl | ⟨before, rfl, hrest⟩
    · exact ⟨_, .nil _⟩
    · obtain ⟨depth₁, h₁⟩ := ih hrest
      exact ⟨depth₁, .plain hline h₁⟩
  | opening hline _ ih =>
    rcases List.prefix_cons_iff.mp hbefore with rfl | ⟨before, rfl, hrest⟩
    · exact ⟨_, .nil _⟩
    · obtain ⟨depth₁, h₁⟩ := ih hrest
      exact ⟨depth₁, .opening hline h₁⟩
  | closing hline _ ih =>
    rcases List.prefix_cons_iff.mp hbefore with rfl | ⟨before, rfl, hrest⟩
    · exact ⟨_, .nil _⟩
    · obtain ⟨depth₁, h₁⟩ := ih hrest
      exact ⟨depth₁, .closing hline h₁⟩

/-- The element around nested lines is open after each of them. -/
theorem openElements_ne_nil (h : Nested name depth ls depth') (hname : IsName name)
    {before : List (List Char)} (hbefore : before <+: ls) :
    openElements (List.replicate (depth + 1) name) before ≠ [] := by
  obtain ⟨depth₁, h₁⟩ := h.exists_of_prefix hbefore
  rw [h₁.openElements_eq hname]
  simp

end Nested

end Colloquy.Markup
