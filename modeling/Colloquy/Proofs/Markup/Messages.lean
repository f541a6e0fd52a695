import Colloquy.Proofs.Markup.Flow
import Colloquy.Proofs.Markup.Header

/-!
# Colloquy — the messages of a text

Every message of a text is a block or stands on the line of its header. A block begins at a
header line and takes in what flows into it up to the next one (`Scanner.Block`); the open
block, if a header began it, is such a block (`Scanner.exists_block_of_explicit`). So a message
is empty only where a block is left empty, and there are at most two messages for each header
line and one before the first (`Scanner.parse_wellFormed`).
-/

namespace Colloquy.Markup

open Text

-- ---------------------------------------------------------------------------
-- Blank contents
-- ---------------------------------------------------------------------------

theorem allBlank_joinLine (content line : List Char) :
    allBlank (joinLine content line) = (allBlank content && allBlank line) := by
  unfold joinLine
  split
  · next h => rw [List.isEmpty_iff.mp h, allBlank_nil, Bool.true_and]
  · rw [allBlank_append]
    rfl

/-- A content is blank if what it was and all lines added to it are. -/
theorem allBlank_joinLines (content : List Char) (ls : List (List Char)) :
    allBlank (joinLines content ls) = (allBlank content && ls.all allBlank) := by
  induction ls generalizing content with
  | nil => exact (Bool.and_true _).symm
  | cons l ls ih =>
    show allBlank (joinLines (joinLine content l) ls) = _
    rw [ih, allBlank_joinLine, List.all_cons, Bool.and_assoc]

theorem Scan.length_pending_le (scan : Scan) : scan.pending.length ≤ 1 := by
  unfold pending
  split <;> simp

/-- A message that was read so far, or is that of the open block. -/
theorem Scan.getElem?_result_eq_some_iff {scan : Scan} {place : Nat} {m : Message} :
    scan.result[place]? = some m ↔
      scan.messages[place]? = some m ∨ (place = scan.messages.length ∧ m ∈ scan.pending) := by
  have hpending := scan.length_pending_le
  rw [result]
  rcases Nat.lt_or_ge place scan.messages.length with hlt | hge
  · rw [List.getElem?_append_left hlt]
    have hne : place ≠ scan.messages.length := by omega
    simp [hne]
  · rw [List.getElem?_append_right hge, List.getElem?_eq_none hge]
    constructor
    · intro hm
      have hlt := (List.getElem?_eq_some_iff.mp hm).1
      exact Or.inr ⟨by omega, List.mem_of_getElem? hm⟩
    · rintro (hm | ⟨rfl, hm⟩)
      · cases hm
      · have hlength := List.length_pos_of_mem hm
        obtain ⟨only, honly⟩ : ∃ only, scan.pending = [only] :=
          List.length_eq_one_iff.mp (by omega)
        rw [honly] at hm ⊢
        rw [List.mem_singleton.mp hm, Nat.sub_self]
        rfl

/-- A message that a header line adds on its own line is not empty, so an empty one was there or was
that of the block before. -/
theorem Scanner.getElem?_result_of_stepHeader {scan : Scan} {role : Role} {rest : List Char}
    {place : Nat} {m : Message} (hm : (stepHeader scan role rest).messages[place]? = some m)
    (hempty : m.text = "") : scan.result[place]? = some m := by
  rw [stepHeader_eq] at hm
  split at hm
  · exact hm
  · next hinline =>
    rcases Nat.lt_or_ge place scan.result.length with hlt | hge
    · rwa [List.getElem?_append_left hlt] at hm
    · rw [List.getElem?_append_right hge] at hm
      have hmem := List.mem_of_getElem? hm
      rw [List.mem_singleton] at hmem
      subst hmem
      have htrim : trim rest = [] := by
        simpa [Message.text, Message.ofText, Content.asText] using hempty
      exact absurd (by rw [htrim]; rfl) hinline

/-- The message of an open block says something, unless a header began the block and nothing but
blanks became content of it. -/
theorem Scan.eq_of_mem_pending {scan : Scan} {m : Message} (hm : m ∈ scan.pending)
    (hempty : m.text = "") :
    m = .ofText scan.role "" ∧ scan.explicit = true ∧ allBlank scan.content = true := by
  unfold pending at hm
  split at hm
  · next h =>
    rw [List.mem_singleton] at hm
    subst hm
    have htrim : trim scan.content = [] := by
      simpa [Message.text, Message.ofText, Content.asText] using hempty
    rw [htrim] at h
    exact ⟨by rw [htrim], by simpa using h, trim_eq_nil_iff.mp htrim⟩
  · simp at hm

namespace Scanner

variable {scanner : Scanner}

-- ---------------------------------------------------------------------------
-- Header lines
-- ---------------------------------------------------------------------------

/-- The line is a header of a role that the scanner recognises, where it is read. -/
def readsHeader (scanner : Scanner) (zone? : Option Zone) (line : List Char) : Bool :=
  match scanner.effect zone? line with
  | .header _ _ => true
  | _ => false

/-- How many of the lines are headers, each read after those before it. -/
def headerCount (scanner : Scanner) : Scan → List (List Char) → Nat
  | _, [] => 0
  | scan, line :: lines =>
    (if scanner.readsHeader scan.zone line then 1 else 0) +
      headerCount scanner (scanner.step scan line) lines

/-- A line adds two messages if it is a header, that of the block before it and its own, and else
none. -/
theorem length_messages_step_le (scanner : Scanner) (scan : Scan) (line : List Char) :
    (scanner.step scan line).messages.length ≤
      scan.messages.length + 2 * if scanner.readsHeader scan.zone line then 1 else 0 := by
  have hpending := scan.length_pending_le
  rw [step_eq_apply, readsHeader]
  cases scanner.effect scan.zone line with
  | header role rest =>
    rw [LineEffect.apply, stepHeader_eq]
    split <;> simp [Scan.result] <;> omega
  | content zone line' => simp [LineEffect.apply, Scan.append]
  | nothing zone => simp [LineEffect.apply]

theorem length_messages_run_le (scanner : Scanner) (scan : Scan) (ls : List (List Char)) :
    (scanner.run scan ls).messages.length ≤
      scan.messages.length + 2 * scanner.headerCount scan ls := by
  induction ls generalizing scan with
  | nil => simp [headerCount]
  | cons l ls ih =>
    have hstep := scanner.length_messages_step_le scan l
    have hrest := ih (scanner.step scan l)
    rw [run_cons, headerCount]
    omega

-- ---------------------------------------------------------------------------
-- Blocks
-- ---------------------------------------------------------------------------

/-- After the lines `before` a header line begins a block of the role, and the lines `inside` flow
into it and add `out` to its content, up to a next header line or to the end. -/
structure Block (scanner : Scanner) (start : Scan) (before : List (List Char)) (header : List Char)
    (inside after : List (List Char)) (role : Role) (out : List (List Char)) : Prop where
  header : ∃ rest, scanner.effect (scanner.run start before).zone header = .header role rest ∧
    allBlank rest = true
  flows : ∃ zone, scanner.Flows none inside zone out ∧
    ∀ next ∈ after.head?, scanner.readsHeader zone next = true

/-- What has been read when the block of a header line is open. -/
theorem run_block {start : Scan} {before inside out : List (List Char)} {header rest : List Char}
    {role : Role} {zone : Option Zone}
    (he : scanner.effect (scanner.run start before).zone header = .header role rest)
    (hrest : allBlank rest = true) (hflows : scanner.Flows none inside zone out) :
    scanner.run start (before ++ header :: inside) =
      { messages := (scanner.run start before).result
        role := role
        content := joinLines [] out
        explicit := true
        zone := zone } := by
  have hstep : scanner.step (scanner.run start before) header =
      { messages := (scanner.run start before).result
        role := role
        content := []
        explicit := true
        zone := none } := by
    have hzone := (header?_of_effect he).1
    have hinline : (trim rest).isEmpty = true := by
      rw [trim_eq_nil_iff.mpr hrest]
      rfl
    rw [step_eq_apply, he, LineEffect.apply, stepHeader_eq, if_pos hinline, hzone]
  rw [run_append, run_cons, hstep, Flows.run_eq _ hflows]

/-- An open block that a header began is what has flowed into it since then. -/
theorem exists_block_of_explicit {start : Scan} (hstart : start.explicit = false)
    {ls : List (List Char)} (h : (scanner.run start ls).explicit = true) :
    ∃ before header inside rest out, ls = before ++ header :: inside ∧
      scanner.effect (scanner.run start before).zone header =
        .header (scanner.run start ls).role rest ∧
      allBlank rest = true ∧ scanner.Flows none inside (scanner.run start ls).zone out := by
  induction ls using List.reverseRecOn with
  | nil => exact absurd (hstart.symm.trans h) Bool.false_ne_true
  | append_singleton ls line ih =>
    rw [run_concat, step_eq_apply] at h ⊢
    cases he : scanner.effect (scanner.run start ls).zone line with
    | header role rest =>
      -- this line began the block, if nothing else stands on it
      have hzone := (header?_of_effect he).1
      rw [he, LineEffect.apply, stepHeader_eq] at h
      rw [LineEffect.apply, stepHeader_eq]
      split at h
      · next hinline =>
        have hrest : allBlank rest = true := trim_eq_nil_iff.mp (List.isEmpty_iff.mp hinline)
        rw [if_pos hinline]
        refine ⟨ls, line, [], rest, [], rfl, he, hrest, ?_⟩
        rw [hzone]
        exact .nil none
      · exact absurd h Bool.false_ne_true
    | content zone line' =>
      rw [he] at h
      obtain ⟨before, header, inside, rest, out, rfl, hheader, hrest, hflows⟩ := ih h
      have hmore : scanner.Flows none (inside ++ [line]) zone (out ++ [line']) :=
        hflows.append (.content he (.nil zone))
      exact ⟨before, header, inside ++ [line], rest, _, by simp, hheader, hrest, hmore⟩
    | nothing zone =>
      rw [he] at h
      obtain ⟨before, header, inside, rest, out, rfl, hheader, hrest, hflows⟩ := ih h
      have hmore : scanner.Flows none (inside ++ [line]) zone (out ++ []) :=
        hflows.append (.nothing he (.nil zone))
      exact ⟨before, header, inside ++ [line], rest, _, by simp, hheader, hrest, hmore⟩

/-- The block of a header line becomes the message after those before it, whatever follows. -/
theorem Block.result_prefix {start : Scan} {before inside after out : List (List Char)}
    {header : List Char} {role : Role}
    (h : scanner.Block start before header inside after role out) :
    (scanner.run start before).result ++
        [.ofText role (String.ofList (trim (joinLines [] out)))] <+:
      (scanner.run start (before ++ header :: inside ++ after)).result := by
  obtain ⟨rest, he, hrest⟩ := h.header
  obtain ⟨zone, hflows, hafter⟩ := h.flows
  have hresult : (scanner.run start (before ++ header :: inside)).result =
      (scanner.run start before).result ++
        [.ofText role (String.ofList (trim (joinLines [] out)))] := by
    rw [run_block he hrest hflows, Scan.result, Scan.pending, Bool.or_true, if_pos rfl]
  rw [← hresult]
  cases after with
  | nil => rw [List.append_nil]
  | cons next after =>
    have hnext := hafter next rfl
    have hzone : (scanner.run start (before ++ header :: inside)).zone = zone := by
      rw [run_block he hrest hflows]
    unfold readsHeader at hnext
    cases henext : scanner.effect zone next with
    | header role' rest' =>
      rw [run_append start (before ++ header :: inside), run_cons]
      exact result_prefix_step_header (hzone ▸ henext) after
    | content zone' line => simp [henext] at hnext
    | nothing zone' => simp [henext] at hnext

-- ---------------------------------------------------------------------------
-- Empty messages
-- ---------------------------------------------------------------------------

/-- Among the lines a header line begins a block, after as many messages as `place`, and nothing but
blanks becomes content of it up to the next header line or the end. -/
def LeavesEmpty (scanner : Scanner) (start : Scan) (ls : List (List Char)) (place : Nat)
    (role : Role) : Prop :=
  ∃ before header inside after out, ls = before ++ header :: inside ++ after ∧
    (scanner.run start before).result.length = place ∧
    scanner.Block start before header inside after role out ∧ out.all allBlank = true

/-- A block that is left empty is an empty message. -/
theorem LeavesEmpty.getElem? {start : Scan} {ls : List (List Char)} {place : Nat} {role : Role}
    (h : scanner.LeavesEmpty start ls place role) :
    (scanner.run start ls).result[place]? = some (.ofText role "") := by
  obtain ⟨before, header, inside, after, out, rfl, rfl, hblock, hblank⟩ := h
  have htrim : trim (joinLines [] out) = [] := by
    rw [trim_eq_nil_iff, allBlank_joinLines, hblank]
    rfl
  obtain ⟨more, hmore⟩ := hblock.result_prefix
  rw [← hmore, htrim, List.append_assoc, List.getElem?_append_right (Nat.le_refl _), Nat.sub_self]
  rfl

/-- An open block whose message is empty, at the end of lines or before a header, was left
empty. -/
theorem leavesEmpty_of_pending {start : Scan} (hstart : start.explicit = false)
    {before after : List (List Char)} {m : Message}
    (hm : m ∈ (scanner.run start before).pending) (hempty : m.text = "")
    (hafter : ∀ next ∈ after.head?,
      scanner.readsHeader (scanner.run start before).zone next = true) :
    scanner.LeavesEmpty start (before ++ after) (scanner.run start before).messages.length
      m.role := by
  obtain ⟨hmessage, hexplicit, hblank⟩ := Scan.eq_of_mem_pending hm hempty
  obtain ⟨lead, header, inside, rest, out, rfl, he, hrest, hflows⟩ :=
    exists_block_of_explicit hstart hexplicit
  have hrun := run_block he hrest hflows
  have hout : out.all allBlank = true := by
    rw [hrun, allBlank_joinLines] at hblank
    simpa using hblank
  have hrole : m.role = (scanner.run start (lead ++ header :: inside)).role := by
    rw [hmessage]
    rfl
  refine ⟨lead, header, inside, after, out, rfl, ?_, ⟨⟨rest, ?_, hrest⟩, _, hflows, hafter⟩, hout⟩
  · rw [hrun]
  · rw [hrole, he]

/-- An empty message that was read was that of the open block before a header. -/
theorem exists_pending_of_getElem? {start : Scan} (hstart : start.messages = [])
    {ls : List (List Char)} {place : Nat} {m : Message}
    (hm : (scanner.run start ls).messages[place]? = some m) (hempty : m.text = "") :
    ∃ before next after, ls = before ++ next :: after ∧
      scanner.readsHeader (scanner.run start before).zone next = true ∧
      (scanner.run start before).messages.length = place ∧
      m ∈ (scanner.run start before).pending := by
  induction ls using List.reverseRecOn with
  | nil => simp [hstart] at hm
  | append_singleton ls line ih =>
    have hearlier (hm : (scanner.run start ls).messages[place]? = some m) :
        ∃ before next after, ls ++ [line] = before ++ next :: after ∧
          scanner.readsHeader (scanner.run start before).zone next = true ∧
          (scanner.run start before).messages.length = place ∧
          m ∈ (scanner.run start before).pending := by
      obtain ⟨before, next, after, rfl, hrest⟩ := ih hm
      exact ⟨before, next, after ++ [line], by simp, hrest⟩
    rw [run_concat, step_eq_apply] at hm
    cases he : scanner.effect (scanner.run start ls).zone line with
    | content zone line' =>
      rw [he] at hm
      exact hearlier hm
    | nothing zone =>
      rw [he] at hm
      exact hearlier hm
    | header role rest =>
      have hheader : scanner.readsHeader (scanner.run start ls).zone line = true := by
        rw [readsHeader, he]
      rw [he] at hm
      rcases Scan.getElem?_result_eq_some_iff.mp (getElem?_result_of_stepHeader hm hempty) with
        hm | ⟨hplace, hpending⟩
      · exact hearlier hm
      · exact ⟨ls, line, [], rfl, hheader, hplace.symm, hpending⟩

/-- A message of lines is empty if and only if it is that of a block that is left empty. -/
theorem text_eq_empty_iff {role : Role} {ls : List (List Char)} {place : Nat} {m : Message}
    (hm : (scanner.run (.start role) ls).result[place]? = some m) :
    m.text = "" ↔ scanner.LeavesEmpty (.start role) ls place m.role := by
  constructor
  · intro hempty
    rcases Scan.getElem?_result_eq_some_iff.mp hm with hm | ⟨rfl, hpending⟩
    · obtain ⟨before, next, after, rfl, hnext, rfl, hpending⟩ :=
        exists_pending_of_getElem? rfl hm hempty
      exact leavesEmpty_of_pending rfl hpending hempty (by simpa using hnext)
    · have hleaves : scanner.LeavesEmpty (.start role) (ls ++ [])
          (scanner.run (.start role) ls).messages.length m.role :=
        leavesEmpty_of_pending rfl hpending hempty (by simp)
      rwa [List.append_nil] at hleaves
  · intro hleaves
    have hm' := hm.symm.trans hleaves.getElem?
    rw [Option.some.inj hm']
    rfl

-- ---------------------------------------------------------------------------
-- All messages
-- ---------------------------------------------------------------------------

/-- Every message of a text has a plain text without blanks at its ends, and the role of the lines
before the first header, the user's, or one that has headers. A message is empty if and only if a
header line begins it and nothing but blanks is content of it up to the next header line or the
end. There are at most two messages for each header line and one more. -/
theorem parse_wellFormed (scanner : Scanner) (text : String) (role : Role) :
    (∀ m ∈ scanner.parse text role, ∃ s, m.content = .text s ∧ trimBlank s = s) ∧
    (∀ m ∈ scanner.parse text role,
      m.role = role ∨ m.role = .user ∨ scanner.HasHeader m.role) ∧
    (∀ place m, (scanner.parse text role)[place]? = some m →
      (m.text = "" ↔ scanner.LeavesEmpty (.start role) (lines text.toList) place m.role)) ∧
    (scanner.parse text role).length ≤
      2 * scanner.headerCount (.start role) (lines text.toList) + 1 := by
  have hreads : ∀ m ∈ scanner.parse text role,
      ReadsAs (fun r => r = role ∨ r = .user ∨ scanner.HasHeader r) m := by
    intro m hm
    refine readsAs_of_mem_parse ?_ ?_ ?_ hm
    · exact Or.inr (Or.inl rfl)
    · exact fun r hr => Or.inr (Or.inr hr)
    · exact Or.inl rfl
  refine ⟨fun m hm => ?_, fun m hm => (hreads m hm).role, fun place m hm => ?_, ?_⟩
  · have hm' := hreads m hm
    exact ⟨m.text, congrArg Message.content hm'.eq_ofText, hm'.trimmed⟩
  · rw [parse_eq] at hm
    exact text_eq_empty_iff hm
  · have hmessages := scanner.length_messages_run_le (.start role) (lines text.toList)
    have hpending := (scanner.run (.start role) (lines text.toList)).length_pending_le
    have hstart : (Scan.start role).messages.length = 0 := rfl
    rw [parse_eq, Scan.result, List.length_append]
    omega

end Scanner

end Colloquy.Markup
