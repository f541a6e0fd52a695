import Colloquy.Proofs.Markup.Content
import Colloquy.Proofs.Markup.Printer

/-!
# Colloquy — texts that hold in brackets

Double brackets hide headers and marks of zones from the scanner, but not their own
end: the first line that ends in closing brackets ends them. A text is safe in them if
no line of it ends in a carriage return and no other line than closing brackets
stands from the first such line on (`holdsInBrackets`). Then its own closing brackets
end the printed ones, and the printed ones take their place in the text
(`Scanner.flows_holding`), so it reads back (`Scanner.readsBack_bracketForm`).
-/

namespace Colloquy.Markup

open Text

/-- A line that ends brackets. -/
def closesBracket (line : List Char) : Bool :=
  closeBracket.isSuffixOf (trim line)

/-- Brackets around the text leave it as it is: no line ends in a carriage return, and from the
first line on that ends brackets, all lines are closing brackets. -/
def holdsInBrackets (text : List Char) : Bool :=
  ((text.splitOn '\n').all fun line => !List.isSuffixOf ['\r'] line) &&
    ((text.splitOn '\n').dropWhile fun line => !closesBracket line).all (· == closeBracket)

namespace Scanner

variable {scanner : Scanner} {role : Role}

-- ---------------------------------------------------------------------------
-- Lines in brackets
-- ---------------------------------------------------------------------------

theorem flows_brackets (scanner : Scanner) {ls : List (List Char)}
    (h : ∀ l ∈ ls, closesBracket l = false) :
    scanner.Flows (some .bracket) ls (some .bracket) ls := by
  induction ls with
  | nil => exact .nil _
  | cons l ls ih =>
    have hopen : closeBracket.isSuffixOf (trim l) = false := h l (List.mem_cons_self ..)
    have hl : scanner.effect (some .bracket) l = .content (some .bracket) l :=
      if_neg (by rw [hopen]; simp)
    exact .content hl (ih fun k hk => h k (List.mem_cons_of_mem _ hk))

theorem effect_closeBracket :
    scanner.effect (some .bracket) closeBracket = .nothing none := rfl

theorem effect_none_closeBracket :
    scanner.effect none closeBracket = .content none closeBracket := rfl

/-- A block in brackets, before its first line. -/
def bracketed (role : Role) : Scan :=
  { messages := [], role := role, content := [], explicit := true, zone := some .bracket }

theorem run_bracketForm {scan : Scan} (h : scanner.HasHeader role) (hz : scan.zone = none)
    (ls : List (List Char)) :
    scanner.run scan ((role.tag.toList ++ [':']) :: [] :: openBracket :: ls) =
      (scanner.run (bracketed role) ls).after scan.result := by
  rw [run_blockLine h hz]
  rfl

-- ---------------------------------------------------------------------------
-- Texts that hold in brackets
-- ---------------------------------------------------------------------------

theorem eq_replicate_of_all {ls : List (List Char)} (h : ls.all (· == closeBracket) = true) :
    ls = List.replicate ls.length closeBracket := by
  refine List.eq_replicate_of_mem fun l hl => ?_
  simpa using List.all_eq_true.mp h l hl

theorem flows_closeBrackets (n : Nat) :
    scanner.Flows none (List.replicate n closeBracket) none (List.replicate n closeBracket) := by
  induction n with
  | zero => exact .nil none
  | succ n ih => exact .content effect_none_closeBracket ih

/-- Lines of a text that holds in brackets, with closing brackets after them, add the lines to the
content: brackets end at the first closing line, and the lines from there on move up by one. -/
theorem flows_holding (scanner : Scanner) {ls : List (List Char)}
    (h : (ls.dropWhile fun line => !closesBracket line).all (· == closeBracket) = true) :
    scanner.Flows (some .bracket) (ls ++ [closeBracket]) none ls := by
  have hsplit := List.takeWhile_append_dropWhile (p := fun line => !closesBracket line) (l := ls)
  have htake : ∀ l ∈ ls.takeWhile fun line => !closesBracket line, closesBracket l = false := by
    intro l hl
    simpa using List.mem_takeWhile_imp hl
  have hdrop := eq_replicate_of_all h
  generalize ls.dropWhile (fun line => !closesBracket line) = rest at hsplit hdrop
  -- one more closing line at the end is one more at the start
  rw [← hsplit, hdrop, List.append_assoc, ← List.replicate_succ', List.replicate_succ]
  exact (flows_brackets scanner htake).append (.nothing effect_closeBracket (flows_closeBrackets _))

/-- A text that holds in brackets reads back from them. -/
theorem readsBack_bracketForm {text : String} (h : scanner.HasHeader role)
    (hholds : holdsInBrackets text.toList = true) :
    scanner.readsBack (bracketForm role text) role text = true := by
  rw [holdsInBrackets, Bool.and_eq_true] at hholds
  have hflow := flows_holding scanner hholds.2
  have hrun := Flows.run_eq (bracketed role) hflow
  rw [readsBack_iff, endedLines_bracketForm h, endedLines_eq_splitOn_iff.mpr hholds.1,
    List.cons_append, List.cons_append, List.cons_append, run_bracketForm h rfl, Scan.zone_after,
    Scan.result_after, run_append, run_cons, run_nil, hrun, result_step_nil]
  refine ⟨zone_step_nil scanner rfl, ?_⟩
  rw [trimBlank, ← trim_joinLines_splitOn]
  simp [Scan.result, Scan.pending, Scan.start, bracketed]

end Scanner

end Colloquy.Markup
