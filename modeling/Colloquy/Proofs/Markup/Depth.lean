import Colloquy.Proofs.Markup.Element
import Colloquy.Proofs.Markup.Header
import Mathlib.Algebra.GroupWithZero.Nat

/-!
# Colloquy — the depth of an open element

While an element is open its stack holds one name, that of the tag which started the zone. A
line inside it goes deeper by one if it starts with a tag of that name, and comes up by one for
each closing tag (`trackElements_replicate`), so the stack is as deep as the tags that were opened
and not closed (`Scanner.OpenSince.exists_depth`). Hence the element is open up to the line on
which their number reaches zero (`Scanner.run_element_depth`).
-/

namespace Colloquy.Markup

open Text

-- ---------------------------------------------------------------------------
-- Tags that count
-- ---------------------------------------------------------------------------

/-- How often the closing tag of the name occurs in a text. -/
def closings (name s : List Char) : Nat :=
  s.tails.countP fun t => (closingTag name).isPrefixOf t

/-- How many elements of the name a line opens at its start. -/
def openingsOn (name line : List Char) : Nat :=
  if (afterOpening? name line).isSome then 1 else 0

/-- How many closing tags of the name a line has. What stands inside the tag that it opens is not
one of them. -/
def closingsOn (name line : List Char) : Nat :=
  closings name ((afterOpening? name line).getD (trim line))

/-- One for the tag that `line` opens, and one more for each that the lines since have opened, less
the closing tags after the first. -/
def unclosed (name line : List Char) (since : List (List Char)) : Int :=
  1 + (since.map (openingsOn name)).sum - ((line :: since).map (closingsOn name)).sum

/-- On the next line the number of unclosed tags reaches zero, with some closing tag if not with the
last. -/
def ReachesZero (name line : List Char) (since : List (List Char)) (next : List Char) : Prop :=
  ∃ closed ≤ closingsOn name next,
    unclosed name line since + openingsOn name next - closed = 0

section

variable {name line : List Char} {since : List (List Char)}

theorem isSome_afterOpening?_iff :
    (afterOpening? name line).isSome ↔
      (∃ attributes after, LeadsWithTag name attributes after (trim line)) ∧
        ¬ ['/', '>'] <:+ trim line := by
  have hself : ¬ ['/', '>'] <:+ trim line ↔ isSelfClosing (trim line) = false := by
    rw [← List.isSuffixOf_iff_suffix, Bool.not_eq_true, isSelfClosing]
  rw [Option.isSome_iff_exists, hself, exists_comm]
  simp only [afterOpening?_eq_some_iff, elementOpen?_eq_some_iff, exists_and_right]

@[simp]
theorem unclosed_nil : unclosed name line [] = 1 - closingsOn name line := by
  simp [unclosed]

theorem unclosed_concat (next : List Char) :
    unclosed name line (since ++ [next]) =
      unclosed name line since + openingsOn name next - closingsOn name next := by
  simp only [unclosed, List.map_cons, List.map_append, List.map_nil, List.sum_cons,
    List.sum_append, List.sum_nil, Nat.add_zero]
  omega

/-- Where tags are unclosed, their number reaches zero on the next line exactly if none is unclosed
after it. -/
theorem reachesZero_iff (h : 0 < unclosed name line since) (next : List Char) :
    ReachesZero name line since next ↔ unclosed name line (since ++ [next]) ≤ 0 := by
  rw [unclosed_concat]
  constructor
  · rintro ⟨closed, hle, hzero⟩
    omega
  · intro hle
    refine ⟨(unclosed name line since + openingsOn name next).toNat, ?_, ?_⟩ <;> omega

end

-- ---------------------------------------------------------------------------
-- Stacks of one name
-- ---------------------------------------------------------------------------

/-- The closing tags that a scan finds are the occurrences of the closing tag. -/
theorem count_closingNames {name : List Char} (h : IsName name) (s : List Char) :
    (closingNames s).count name = closings name s := by
  induction s with
  | nil => rfl
  | cons c s ih =>
    have hstarts : (closingTag name).isPrefixOf (c :: s) = true ↔
        closingName? (c :: s) = some name := by
      rw [closingName?_eq_some_iff h, List.isPrefixOf_iff_prefix]
    rw [closings, List.tails_cons, List.countP_cons, ← closings, ← ih, closingNames]
    cases hname : closingName? (c :: s) with
    | none => simp [hstarts, hname]
    | some found => simp [hstarts, hname, List.count_cons]

theorem closeNames_replicate (name : List Char) (depth : Nat) (names : List (List Char)) :
    closeNames (List.replicate depth name) names =
      List.replicate (depth - names.count name) name := by
  induction names generalizing depth with
  | nil => rfl
  | cons n names ih =>
    -- a closing tag of the name takes one away, if there is one
    rw [closeNames, List.foldl_cons, ← closeNames, List.count_cons]
    cases depth with
    | zero => simpa using ih 0
    | succ depth =>
      rw [List.replicate_succ]
      dsimp only
      by_cases hn : name = n
      · rw [if_pos hn, ih, if_pos (by simp [hn]), Nat.add_sub_add_right]
      · have hne : ¬ (n == name) = true := by simpa using Ne.symm hn
        rw [if_neg hn, ← List.replicate_succ, ih, if_neg hne]
        rfl

/-- Inside elements of one name a line goes deeper by the one that it opens, and comes up by as many
as it closes. -/
theorem trackElements_replicate {name : List Char} (h : IsName name) (depth : Nat)
    (line : List Char) :
    trackElements (List.replicate (depth + 1) name) (trim line) =
      List.replicate (depth + 1 + openingsOn name line - closingsOn name line) name := by
  rw [List.replicate_succ, trackElements_cons, openingsOn, closingsOn]
  cases afterOpening? name line with
  | some after =>
    dsimp only
    rw [← List.replicate_succ, ← List.replicate_succ, closeNames_replicate, count_closingNames h]
    rfl
  | none =>
    dsimp only
    rw [← List.replicate_succ, closeNames_replicate, count_closingNames h]
    rfl

-- ---------------------------------------------------------------------------
-- Zones of elements
-- ---------------------------------------------------------------------------

/-- The zone that a line leaves open; a header leaves none. -/
def LineEffect.zone : LineEffect → Option Zone
  | .header _ _ => none
  | .content zone _ => zone
  | .nothing zone => zone

namespace LineEffect

@[simp]
theorem zone_header (role : Role) (rest : List Char) : (header role rest).zone = none := rfl

@[simp]
theorem zone_content (zone : Option Zone) (line : List Char) :
    (content zone line).zone = zone := rfl

@[simp]
theorem zone_nothing (zone : Option Zone) : (nothing zone).zone = zone := rfl

@[simp]
theorem zone_unlessBlank (zone : Option Zone) (line : List Char) :
    (unlessBlank zone line).zone = zone := by
  unfold unlessBlank
  split <;> rfl

end LineEffect

/-- The zone of elements that are open, if any is. -/
def elementZone : List (List Char) → Option Zone
  | [] => none
  | stack => some (.element stack)

theorem elementZone_replicate_eq_none_iff {name : List Char} {depth : Nat} :
    elementZone (List.replicate depth name) = none ↔ depth = 0 := by
  cases depth <;> simp [elementZone, List.replicate_succ]

/-- An element is open. -/
def Scan.InElement (scan : Scan) : Prop :=
  ∃ stack, scan.zone = some (.element stack)

theorem Scan.InElement.exists_depth {scan : Scan} (h : scan.InElement) {name : List Char}
    {depth : Nat} (hz : scan.zone = elementZone (List.replicate depth name)) :
    ∃ d, depth = d + 1 ∧ scan.zone = some (.element (List.replicate (d + 1) name)) := by
  cases depth with
  | zero =>
    obtain ⟨stack, hstack⟩ := h
    exact absurd (hz.symm.trans hstack) nofun
  | succ d => exact ⟨d, rfl, hz⟩

theorem Scan.inElement_of_ne_zero {scan : Scan} {name : List Char} {depth : Nat}
    (hz : scan.zone = elementZone (List.replicate depth name)) (h : depth ≠ 0) :
    scan.InElement := by
  obtain ⟨d, rfl⟩ := Nat.exists_eq_succ_of_ne_zero h
  exact ⟨_, hz⟩

/-- Outside zones the line opens an element of the name, though it may close it again. -/
structure StartsElement (name line : List Char) : Prop where
  command : commandOpen? (trim line) = none
  opens : (afterOpening? name line).isSome

namespace Scanner

variable {scanner : Scanner} {scan : Scan} {line : List Char}

theorem zone_step (scan : Scan) (line : List Char) :
    (scanner.step scan line).zone = (scanner.effect scan.zone line).zone := by
  rw [step_eq_apply]
  cases he : scanner.effect scan.zone line with
  | header role rest =>
    -- a header stands outside zones
    rw [LineEffect.apply, stepHeader_eq]
    split <;> exact (header?_of_effect he).1
  | content zone line' => rfl
  | nothing zone => rfl

/-- Inside an element the stack of the tags decides. -/
theorem zone_step_of_element (scanner : Scanner) {stack : List (List Char)}
    (h : scan.zone = some (.element stack)) (line : List Char) :
    (scanner.step scan line).zone = elementZone (trackElements stack (trim line)) := by
  rw [zone_step, h, effect, Zone.effect]
  cases trackElements stack (trim line) <;> rfl

/-- An element that opens outside zones is alone, and closes with the first closing tag. -/
theorem zone_step_of_starts (scanner : Scanner) {name : List Char} (h : scan.zone = none)
    (hstarts : StartsElement name line) :
    (scanner.step scan line).zone =
      elementZone (List.replicate (1 - closingsOn name line) name) := by
  obtain ⟨after, hafter⟩ := Option.isSome_iff_exists.mp hstarts.opens
  obtain ⟨hopen, hstays⟩ := afterOpening?_eq_some_iff.mp hafter
  have hclosed : closeNames [name] (closingNames after) =
      List.replicate (1 - closingsOn name line) name := by
    rw [closingsOn, hafter, ← List.replicate_one, closeNames_replicate,
      count_closingNames (name_of_elementOpen? hopen).1]
    rfl
  rw [zone_step, h, scanner.effect_of_elementOpen? hstarts.command hopen, elementEffect, hstays,
    ← hclosed]
  cases closeNames [name] (closingNames after) <;> rfl

/-- An element is open after a line only if it was before, or if the line opens it outside zones. -/
theorem starts_or_inElement (h : (scanner.step scan line).InElement) :
    (scan.zone = none ∧ ∃ name, StartsElement name line) ∨ scan.InElement := by
  obtain ⟨stack, h⟩ := h
  rw [zone_step] at h
  cases hz : scan.zone with
  | some zone =>
    rw [hz, effect] at h
    cases zone with
    | element stack => exact Or.inr ⟨stack, hz⟩
    | fence =>
      rw [Zone.effect] at h
      split at h <;> simp at h
    | bracket =>
      rw [Zone.effect] at h
      split at h <;> simp at h
    | command =>
      rw [Zone.effect] at h
      split at h <;> simp at h
  | none =>
    -- of the shapes of lines outside zones only the start of an element leaves one open
    rw [hz, effect, outsideEffect] at h
    refine Or.inl ⟨rfl, ?_⟩
    split at h
    · simp at h
    · split at h
      · rw [bracketEffect] at h
        split at h <;> simp at h
      · split at h
        · simp at h
        · next hcommand =>
          split at h
          · next name after hopen =>
            rw [elementEffect] at h
            split at h
            · simp at h
            · next hself =>
              refine ⟨name, hcommand, ?_⟩
              rw [afterOpening?, hopen]
              simp [hself]
          · rw [plainEffect] at h
            split at h
            · split at h <;> simp at h
            · simp at h

-- ---------------------------------------------------------------------------
-- Elements along a run
-- ---------------------------------------------------------------------------

/-- After the lines `before` no zone is open, `line` starts with a tag of the name and does not end
in the mark of an element without content, and an element has been open after it and after each of
the lines since. -/
structure OpenSince (scanner : Scanner) (scan : Scan) (name : List Char)
    (before : List (List Char)) (line : List Char) (since : List (List Char)) : Prop where
  outside : (scanner.run scan before).zone = none
  tag : ∃ attributes after, LeadsWithTag name attributes after (trim line)
  content : ¬ ['/', '>'] <:+ trim line
  throughout : ∀ part, part <+: since → (scanner.run scan (before ++ line :: part)).InElement

namespace OpenSince

variable {name : List Char} {before since : List (List Char)}

theorem isName (h : OpenSince scanner scan name before line since) : IsName name := by
  obtain ⟨attributes, after, htag⟩ := h.tag
  exact htag.isName

theorem of_prefix (h : OpenSince scanner scan name before line since) {part : List (List Char)}
    (hpart : part <+: since) : OpenSince scanner scan name before line part where
  outside := h.outside
  tag := h.tag
  content := h.content
  throughout := fun rest hrest => h.throughout rest (hrest.trans hpart)

theorem concat (h : OpenSince scanner scan name before line since) {next : List Char}
    (hnext : (scanner.run scan (before ++ line :: (since ++ [next]))).InElement) :
    OpenSince scanner scan name before line (since ++ [next]) where
  outside := h.outside
  tag := h.tag
  content := h.content
  throughout := by
    intro part hpart
    rcases List.prefix_concat_iff.mp hpart with rfl | hpart
    · exact hnext
    · exact h.throughout part hpart

theorem starts (h : OpenSince scanner scan name before line since) : StartsElement name line := by
  have hopen := h.throughout [] List.nil_prefix
  rw [run_concat] at hopen
  rcases starts_or_inElement hopen with ⟨-, _, hstarts⟩ | ⟨stack, hstack⟩
  · exact ⟨hstarts.command, isSome_afterOpening?_iff.mpr ⟨h.tag, h.content⟩⟩
  · exact absurd (h.outside.symm.trans hstack) nofun

/-- The stack holds the name as often as tags of it are unclosed, which is at least once. -/
theorem exists_depth (h : OpenSince scanner scan name before line since) :
    ∃ depth : Nat, unclosed name line since = depth + 1 ∧
      (scanner.run scan (before ++ line :: since)).zone =
        some (.element (List.replicate (depth + 1) name)) := by
  have hopen := h.throughout since List.prefix_rfl
  induction since using List.reverseRecOn with
  | nil =>
    have hzone := scanner.zone_step_of_starts h.outside h.starts
    rw [← run_concat] at hzone
    obtain ⟨depth, hdepth, hzone⟩ := hopen.exists_depth hzone
    refine ⟨depth, ?_, hzone⟩
    rw [unclosed_nil]
    omega
  | append_singleton since next ih =>
    have hbefore := h.of_prefix (List.prefix_append since [next])
    obtain ⟨depth, hdepth, hzone⟩ := ih hbefore (hbefore.throughout since List.prefix_rfl)
    have hstep := scanner.zone_step_of_element hzone next
    rw [trackElements_replicate h.isName, ← run_concat, List.append_assoc,
      List.cons_append] at hstep
    obtain ⟨depth', hdepth', hzone'⟩ := hopen.exists_depth hstep
    refine ⟨depth', ?_, hzone'⟩
    rw [unclosed_concat, hdepth]
    omega

/-- The element is closed by the line on which the number of unclosed tags reaches zero, and is open
after any other. -/
theorem zone_concat (h : OpenSince scanner scan name before line since) (next : List Char) :
    ((scanner.run scan (before ++ line :: since ++ [next])).zone = none ↔
      ReachesZero name line since next) ∧
    (¬ ReachesZero name line since next →
      OpenSince scanner scan name before line (since ++ [next])) := by
  obtain ⟨depth, hdepth, hzone⟩ := h.exists_depth
  have hpos : 0 < unclosed name line since := by omega
  have hstep := scanner.zone_step_of_element hzone next
  rw [trackElements_replicate h.isName, ← run_concat] at hstep
  rw [reachesZero_iff hpos, unclosed_concat, hdepth]
  constructor
  · rw [hstep, elementZone_replicate_eq_none_iff]
    omega
  · intro hleft
    have hopen := Scan.inElement_of_ne_zero hstep (by omega)
    rw [List.append_assoc, List.cons_append] at hopen
    exact h.concat hopen

end OpenSince

theorem openSince_of_starts {name : List Char} {ls : List (List Char)}
    (hz : (scanner.run scan ls).zone = none) (hstarts : StartsElement name line)
    (h : (scanner.run scan (ls ++ [line])).InElement) :
    OpenSince scanner scan name ls line [] := by
  obtain ⟨htag, hcontent⟩ := isSome_afterOpening?_iff.mp hstarts.opens
  refine ⟨hz, htag, hcontent, fun part hpart => ?_⟩
  rwa [List.prefix_nil.mp hpart]

/-- Where an element is open, some line has opened it outside zones, and it has been open since. -/
theorem exists_openSince (hz : scan.zone = none) {ls : List (List Char)}
    (h : (scanner.run scan ls).InElement) :
    ∃ name before line since, ls = before ++ line :: since ∧
      OpenSince scanner scan name before line since := by
  induction ls using List.reverseRecOn with
  | nil =>
    obtain ⟨stack, hstack⟩ := h
    exact absurd (hz.symm.trans hstack) nofun
  | append_singleton ls line ih =>
    have hstep := h
    rw [run_concat] at hstep
    rcases starts_or_inElement hstep with ⟨hzone, name, hstarts⟩ | hopen
    · exact ⟨name, ls, line, [], rfl, openSince_of_starts hzone hstarts h⟩
    · obtain ⟨name, before, first, since, rfl, hsince⟩ := ih hopen
      rw [List.append_assoc, List.cons_append] at h ⊢
      exact ⟨name, before, first, since ++ [line], rfl, hsince.concat h⟩

/-- In every state that lines lead to, an open element has a stack that holds one name and no other,
that of the tag with which it was opened outside zones. The stack is as deep as the tags of the name
that lines have opened at their starts, the first and those since, less the closing tags after the
first, and the element is open up to the line on which this number reaches zero, be it the line that
opens it. -/
theorem run_element_depth (scanner : Scanner) (role : Role) (ls : List (List Char)) :
    (∀ stack, (scanner.run (.start role) ls).zone = some (.element stack) →
      ∃ name before line since, ls = before ++ line :: since ∧
        OpenSince scanner (.start role) name before line since ∧
        stack ≠ [] ∧ (∀ entry ∈ stack, entry = name) ∧
        (stack.length : Int) = unclosed name line since ∧
        ∀ next,
          ((scanner.run (.start role) (ls ++ [next])).zone = none ↔
            ReachesZero name line since next) ∧
          (¬ ReachesZero name line since next →
            OpenSince scanner (.start role) name before line (since ++ [next]))) ∧
    ((scanner.run (.start role) ls).zone = none →
      ∀ name line, StartsElement name line →
        ((scanner.run (.start role) (ls ++ [line])).zone = none ↔ 0 < closingsOn name line) ∧
        (closingsOn name line = 0 → OpenSince scanner (.start role) name ls line [])) := by
  constructor
  · intro stack hstack
    obtain ⟨name, before, line, since, rfl, h⟩ := exists_openSince rfl ⟨stack, hstack⟩
    obtain ⟨depth, hdepth, hzone⟩ := h.exists_depth
    obtain rfl : List.replicate (depth + 1) name = stack := by
      simpa using hzone.symm.trans hstack
    refine ⟨name, before, line, since, rfl, h, by simp, fun entry hentry => ?_, ?_, h.zone_concat⟩
    · exact List.eq_of_mem_replicate hentry
    · rw [List.length_replicate, hdepth]
      rfl
  · intro hzone name line hstarts
    have hstep := scanner.zone_step_of_starts hzone hstarts
    rw [← run_concat] at hstep
    refine ⟨?_, fun hnone => openSince_of_starts hzone hstarts ?_⟩
    · rw [hstep, elementZone_replicate_eq_none_iff]
      omega
    · exact Scan.inElement_of_ne_zero hstep (by omega)

/-- Notes inside a note, with a tag that is closed on its line, one whose attributes look like a
closing tag, and one that does not start its line. -/
theorem run_element_depth_notes :
    let note := "note".toList
    let opened := " <note id=\"1\">a".toList
    let ended := "<note>a</note> b".toList
    let notes := ["intro".toList, opened, ended, "<note </note>".toList,
      "<b/></note> <note>".toList, "<note>".toList]
    (({} : Scanner).run (.start .user) notes).zone = some (.element [note, note]) ∧
    (∃ before line since, notes = before ++ line :: since ∧
      OpenSince {} (.start .user) note before line since ∧ unclosed note line since = 2 ∧
      ∀ next, (({} : Scanner).run (.start .user) (notes ++ [next])).zone = none ↔
        ReachesZero note line since next) ∧
    ((({} : Scanner).run (.start .user) []).zone = none ∧ StartsElement note opened ∧
      StartsElement note ended ∧ closingsOn note opened = 0 ∧ 0 < closingsOn note ended) ∧
    OpenSince {} (.start .user) note [] opened [] ∧
    (({} : Scanner).run (.start .user) [ended]).zone = none := by
  intro note opened ended notes
  have hzone : (({} : Scanner).run (.start .user) notes).zone = some (.element [note, note]) := by
    decide +kernel
  have hstart : (({} : Scanner).run (.start .user) []).zone = none := rfl
  have hopened : StartsElement note opened := ⟨by decide +kernel, by decide +kernel⟩
  have hended : StartsElement note ended := ⟨by decide +kernel, by decide +kernel⟩
  have hnone : closingsOn note opened = 0 := by decide +kernel
  have hclosed : 0 < closingsOn note ended := by decide +kernel
  obtain ⟨name, before, line, since, hnotes, hsince, -, hentry, hlength, hnext⟩ :=
    (run_element_depth {} .user notes).1 _ hzone
  obtain rfl := hentry note (List.mem_cons_self ..)
  have hstarts := (run_element_depth {} .user []).2 hstart note
  exact ⟨hzone, ⟨before, line, since, hnotes, hsince, hlength.symm, fun next => (hnext next).1⟩,
    ⟨hstart, hopened, hended, hnone, hclosed⟩, (hstarts opened hopened).2 hnone,
    (hstarts ended hended).1.mpr hclosed⟩

end Scanner

end Colloquy.Markup
