import Colloquy.Proofs.Text.Cut
import Colloquy.Settings

/-!
# Colloquy — the tokens of a server

Settings of a server are looked up under tokens: its name and the runs of neighbouring labels of
its name. A list from which later copies are dropped is ordered if each element comes in order
where it is new (`FirstsOrdered.pairwise`). Runs of one length are new in the order in which they
stand in the name (`firstsOrdered_labelRuns`), and longer runs are new after shorter ones, so the
tokens are ordered by the number of their labels and then by their place
(`serverTokens_precedes`).
-/

namespace Colloquy

-- ---------------------------------------------------------------------------
-- Dropping later copies
-- ---------------------------------------------------------------------------

theorem mem_addNew {tokens : List String} {token t : String} :
    t ∈ addNew tokens token ↔ t ∈ tokens ∨ t = token := by
  unfold addNew
  split
  · next h =>
    refine ⟨Or.inl, ?_⟩
    rintro (ht | rfl)
    · exact ht
    · simpa using h
  · simp

theorem mem_foldl_addNew {ts : List String} {t : String} :
    t ∈ ts.foldl addNew [] ↔ t ∈ ts := by
  induction ts using List.reverseRecOn with
  | nil => rfl
  | append_singleton ts token ih =>
    rw [List.foldl_append, List.foldl_cons, List.foldl_nil, mem_addNew, ih, List.mem_append,
      List.mem_singleton]

/-- Where an element is new, all elements before it are related to it. -/
inductive FirstsOrdered (R : String → String → Prop) : List String → Prop
  | nil : FirstsOrdered R []
  | concat {ts : List String} {t : String} (h : FirstsOrdered R ts)
      (ht : t ∉ ts → ∀ s ∈ ts, R s t) : FirstsOrdered R (ts ++ [t])

namespace FirstsOrdered

variable {R : String → String → Prop}

/-- Without later copies the elements are ordered. -/
theorem pairwise {ts : List String} (h : FirstsOrdered R ts) :
    (ts.foldl addNew []).Pairwise R := by
  induction h with
  | nil => exact .nil
  | @concat ts t _ ht ih =>
    rw [List.foldl_append, List.foldl_cons, List.foldl_nil, addNew]
    split
    · exact ih
    · next hnew =>
      have hmem : t ∉ ts := by simpa [mem_foldl_addNew] using hnew
      refine List.pairwise_append.mpr ⟨ih, List.pairwise_singleton R t, fun s hs t' ht' => ?_⟩
      rw [List.mem_singleton.mp ht']
      exact ht hmem s (mem_foldl_addNew.mp hs)

theorem append {ss ts : List String} (hs : FirstsOrdered R ss) (ht : FirstsOrdered R ts)
    (h : ∀ t ∈ ts, t ∉ ss → ∀ s ∈ ss, R s t) : FirstsOrdered R (ss ++ ts) := by
  induction ht with
  | nil => rwa [List.append_nil]
  | @concat ts t _ ht ih =>
    rw [← List.append_assoc]
    refine .concat (ih fun t' ht' => h t' (List.mem_append_left _ ht')) fun hnew s hmem => ?_
    rw [List.mem_append, not_or] at hnew
    rcases List.mem_append.mp hmem with hmem | hmem
    · exact h t (by simp) hnew.1 s hmem
    · exact ht hnew.2 s hmem

theorem singleton (t : String) : FirstsOrdered R [t] :=
  .concat .nil fun _ _ hs => absurd hs List.not_mem_nil

theorem map_range {f : Nat → String} {n : Nat}
    (h : ∀ j < n, (∀ i < j, f i ≠ f j) → ∀ i < j, R (f i) (f j)) :
    FirstsOrdered R ((List.range n).map f) := by
  induction n with
  | zero => exact .nil
  | succ n ih =>
    rw [List.range_succ, List.map_append]
    refine .concat (ih fun j hj => h j (by omega)) fun hnew s hs => ?_
    obtain ⟨i, hi, rfl⟩ := List.mem_map.mp hs
    refine h n (by omega) (fun i hi heq => hnew ?_) i (List.mem_range.mp hi)
    exact List.mem_map.mpr ⟨i, List.mem_range.mpr hi, heq⟩

theorem flatMap_range {g : Nat → List String} {n : Nat}
    (hg : ∀ k < n, FirstsOrdered R (g k))
    (h : ∀ k < n, ∀ j < k, ∀ s ∈ g j, ∀ t ∈ g k, R s t) :
    FirstsOrdered R ((List.range n).flatMap g) := by
  induction n with
  | zero => exact .nil
  | succ n ih =>
    rw [List.range_succ, List.flatMap_append, List.flatMap_singleton]
    have hbefore := ih (fun k hk => hg k (by omega)) fun k hk => h k (by omega)
    refine hbefore.append (hg n (by omega)) fun t ht _ s hs => ?_
    obtain ⟨j, hj, hs⟩ := List.mem_flatMap.mp hs
    exact h n (by omega) j (List.mem_range.mp hj) s hs t ht

end FirstsOrdered

-- ---------------------------------------------------------------------------
-- Names of servers
-- ---------------------------------------------------------------------------

/-- What follows the scheme of an address, or all of an address that has none. -/
inductive FollowsScheme (url : String) : String → Prop
  | https {rest : String} (h : url = "https://" ++ rest) : FollowsScheme url rest
  | http {rest : String} (h : url = "http://" ++ rest) : FollowsScheme url rest
  | none (hs : ∀ rest, url ≠ "https://" ++ rest) (hp : ∀ rest, url ≠ "http://" ++ rest) :
      FollowsScheme url url

/-- The name stands before the first slash or colon of a text. -/
structure StandsFirst (name rest : String) : Prop where
  noMark : '/' ∉ name.toList ∧ ':' ∉ name.toList
  eq_append : ∃ tail : String, rest = name ++ tail ∧ ∀ c ∈ tail.toList.head?, c = '/' ∨ c = ':'

/-- The server of an address: what stands first after the scheme, or a name for the lack of one. -/
def ServedBy (url server : String) : Prop :=
  ∃ rest name, FollowsScheme url rest ∧ StandsFirst name rest ∧
    server = if name = "" then "NOSERVER" else name

/-- The labels of a name are what stands between its dots. -/
structure HasLabels (name : String) (labels : List String) : Prop where
  nonempty : labels ≠ []
  dotless : ∀ label ∈ labels, '.' ∉ label.toList
  joined : joinWith "." labels = name

/-- A last label of at most three bytes is dropped if there are labels before it. -/
inductive DropsEnding : List String → List String → Prop
  | drops {kept : List String} {last : String} (hne : kept ≠ []) (hlast : last.utf8ByteSize ≤ 3) :
      DropsEnding (kept ++ [last]) kept
  | single (label : String) : DropsEnding [label] [label]
  | keeps {before : List String} {last : String} (hlast : 3 < last.utf8ByteSize) :
      DropsEnding (before ++ [last]) (before ++ [last])

theorem standsFirst_takeWhile (rest : String) :
    StandsFirst (String.ofList (rest.toList.takeWhile fun c => c != '/' && c != ':')) rest where
  noMark := by
    rw [String.toList_ofList]
    constructor <;> exact fun hmem => absurd (List.mem_takeWhile_imp hmem) (by decide)
  eq_append := by
    refine ⟨String.ofList (rest.toList.dropWhile fun c => c != '/' && c != ':'), ?_, ?_⟩
    · rw [← String.ofList_append, List.takeWhile_append_dropWhile, String.ofList_toList]
    · intro c hc
      rw [String.toList_ofList] at hc
      have hnot := List.head?_dropWhile_not (fun c => c != '/' && c != ':') rest.toList
      rw [Option.mem_def.mp hc] at hnot
      simpa [Decidable.or_iff_not_imp_left] using hnot

theorem servedBy_serverName (url : String) : ServedBy url (serverName url) := by
  have hserved {rest : String} (h : FollowsScheme url rest)
      (hrest : serverName url =
        let name := String.ofList (rest.toList.takeWhile fun c => c != '/' && c != ':')
        if name.isEmpty then noServer else name) :
      ServedBy url (serverName url) := by
    refine ⟨rest, _, h, standsFirst_takeWhile rest, ?_⟩
    simp [hrest, noServer]
  cases hs : dropStart? url "https://" with
  | some rest =>
    refine hserved (.https (dropStart?_eq_some_iff.mp hs)) ?_
    rw [serverName, hs]
  | none =>
    cases hp : dropStart? url "http://" with
    | some rest =>
      refine hserved (.http (dropStart?_eq_some_iff.mp hp)) ?_
      rw [serverName, hs, hp]
      rfl
    | none =>
      refine hserved (.none (dropStart?_eq_none_iff.mp hs) (dropStart?_eq_none_iff.mp hp)) ?_
      rw [serverName, hs, hp]
      rfl

theorem hasLabels_splitAll (name : String) : HasLabels name (splitAll name '.') where
  nonempty := splitAll_ne_nil name '.'
  dotless := fun _ hlabel => not_mem_of_mem_splitAll hlabel
  joined := joinWith_splitAll rfl name

theorem dropsEnding_serverLabels (server : String) :
    DropsEnding (splitAll server '.') (serverLabels server) := by
  obtain ⟨before, last, h⟩ :=
    (List.eq_nil_or_concat (splitAll server '.')).resolve_left (splitAll_ne_nil server '.')
  rw [List.concat_eq_append] at h
  rw [serverLabels, h, List.getLast?_concat, List.dropLast_concat, List.length_append,
    List.length_singleton]
  by_cases hlast : last.utf8ByteSize ≤ 3
  · cases before with
    | nil => exact .single last
    | cons label before =>
      rw [if_pos (by simp [hlast])]
      exact .drops (List.cons_ne_nil _ _) hlast
  · rw [if_neg (by simp [hlast])]
    exact .keeps (by omega)

-- ---------------------------------------------------------------------------
-- Runs of labels
-- ---------------------------------------------------------------------------

/-- How many labels a token has. -/
def labelCount (token : String) : Nat :=
  (splitAll token '.').length

/-- The first place from which the labels of a token can be read. -/
def firstAt (labels : List String) (token : String) : Nat :=
  labels.tails.findIdx fun rest => (splitAll token '.').isPrefixOf rest

/-- Tokens with fewer labels come first, and of those with as many labels the one that is found
further to the left. -/
def Precedes (labels : List String) (s t : String) : Prop :=
  labelCount s < labelCount t ∨
    labelCount s = labelCount t ∧ firstAt labels s < firstAt labels t

theorem Precedes.ne {labels : List String} {s t : String} (h : Precedes labels s t) : s ≠ t := by
  rintro rfl
  rcases h with hlt | ⟨-, hlt⟩
  · exact absurd hlt (Nat.lt_irrefl _)
  · exact absurd hlt (Nat.lt_irrefl _)

section

variable {labels run : List String} {len : Nat}

theorem splitAll_run (hdots : ∀ label ∈ labels, '.' ∉ label.toList) (hne : run ≠ [])
    (hrun : run <:+: labels) : splitAll (joinWith "." run) '.' = run :=
  splitAll_joinWith rfl hne fun label hlabel => hdots label (hrun.subset hlabel)

theorem mem_labelRuns {token : String} :
    token ∈ labelRuns labels len ↔
      ∃ run, run.length = len ∧ run <:+: labels ∧ token = joinWith "." run := by
  rw [labelRuns, List.mem_map]
  constructor
  · rintro ⟨i, hi, rfl⟩
    rw [List.mem_range] at hi
    refine ⟨(labels.drop i).take len, ?_, ?_, rfl⟩
    · rw [List.length_take, List.length_drop]
      omega
    · exact (List.take_prefix ..).isInfix.trans (List.drop_suffix ..).isInfix
  · rintro ⟨run, rfl, ⟨before, after, rfl⟩, rfl⟩
    refine ⟨before.length, ?_, ?_⟩
    · rw [List.mem_range, List.length_append, List.length_append]
      omega
    · rw [List.append_assoc, List.drop_left, List.take_left]

theorem labelRuns_one (labels : List String) : labelRuns labels 1 = labels := by
  refine List.ext_getElem (by simp [labelRuns]) fun i _ hi => ?_
  simp [labelRuns, List.take_one_drop_eq_of_lt_length hi, joinWith]

theorem labelCount_of_mem (hdots : ∀ label ∈ labels, '.' ∉ label.toList) (hlen : 0 < len)
    {token : String} (h : token ∈ labelRuns labels len) : labelCount token = len := by
  obtain ⟨run, rfl, hrun, rfl⟩ := mem_labelRuns.mp h
  rw [labelCount, splitAll_run hdots (List.ne_nil_of_length_pos hlen) hrun]

theorem firstAt_le {token : String} {i : Nat} (h : splitAll token '.' <+: labels.drop i) :
    firstAt labels token ≤ i := by
  by_contra hlt
  have hnot := List.not_of_lt_findIdx (Nat.lt_of_not_le hlt)
  rw [List.getElem_tails, List.isPrefixOf_iff_prefix.mpr h] at hnot
  exact absurd hnot (by simp)

theorem splitAll_prefix_of_firstAt_le {token : String} (h : firstAt labels token ≤ labels.length) :
    splitAll token '.' <+: labels.drop (firstAt labels token) := by
  have hlt : firstAt labels token < labels.tails.length := by
    rw [List.length_tails]
    omega
  have hfound : (splitAll token '.').isPrefixOf labels.tails[firstAt labels token] = true :=
    List.findIdx_getElem
  rwa [List.getElem_tails, List.isPrefixOf_iff_prefix] at hfound

theorem splitAll_take_drop (hdots : ∀ label ∈ labels, '.' ∉ label.toList) (hlen : 0 < len)
    {i : Nat} (hi : i < labels.length + 1 - len) :
    splitAll (joinWith "." ((labels.drop i).take len)) '.' = (labels.drop i).take len := by
  refine splitAll_run hdots (List.ne_nil_of_length_pos ?_) ?_
  · rw [List.length_take, List.length_drop]
    omega
  · exact (List.take_prefix ..).isInfix.trans (List.drop_suffix ..).isInfix

/-- A run that is new where it stands is found nowhere further left. -/
theorem le_firstAt (hdots : ∀ label ∈ labels, '.' ∉ label.toList) (hlen : 0 < len) {j : Nat}
    (hj : j < labels.length + 1 - len)
    (hnew : ∀ i < j,
      joinWith "." ((labels.drop i).take len) ≠ joinWith "." ((labels.drop j).take len)) :
    j ≤ firstAt labels (joinWith "." ((labels.drop j).take len)) := by
  by_contra hlt
  rw [Nat.not_le] at hlt
  refine hnew _ hlt ?_
  have hfound := splitAll_prefix_of_firstAt_le (hlt.le.trans (by omega : j ≤ labels.length))
  rw [splitAll_take_drop hdots hlen hj] at hfound
  have htake := List.prefix_iff_eq_take.mp hfound
  rw [List.length_take, List.length_drop, Nat.min_eq_left (by omega)] at htake
  rw [← htake]

/-- Runs of one length are new in the order of the places at which they are found first. -/
theorem firstsOrdered_labelRuns (hdots : ∀ label ∈ labels, '.' ∉ label.toList) (hlen : 0 < len) :
    FirstsOrdered (Precedes labels) (labelRuns labels len) := by
  refine FirstsOrdered.map_range fun j hj hnew i hij => Or.inr ?_
  have hi := hij.trans hj
  have hsplit := splitAll_take_drop hdots hlen hi
  constructor
  · rw [labelCount, labelCount, hsplit, splitAll_take_drop hdots hlen hj, List.length_take,
      List.length_take, List.length_drop, List.length_drop]
    omega
  · calc firstAt labels (joinWith "." ((labels.drop i).take len))
      _ ≤ i := firstAt_le (by rw [hsplit]; exact List.take_prefix ..)
      _ < j := hij
      _ ≤ firstAt labels (joinWith "." ((labels.drop j).take len)) :=
        le_firstAt hdots hlen hj hnew

-- ---------------------------------------------------------------------------
-- Tokens
-- ---------------------------------------------------------------------------

/-- All runs of neighbouring labels, the single labels twice, and shorter ones first. -/
def allRuns (labels : List String) : List String :=
  labels ++ (List.range labels.length).flatMap fun k => labelRuns labels (k + 1)

theorem mem_allRuns {token : String} :
    token ∈ allRuns labels ↔ ∃ run, run ≠ [] ∧ run <:+: labels ∧ token = joinWith "." run := by
  have hruns : (∃ k < labels.length, token ∈ labelRuns labels (k + 1)) ↔
      ∃ run, run ≠ [] ∧ run <:+: labels ∧ token = joinWith "." run := by
    constructor
    · rintro ⟨k, -, hk⟩
      obtain ⟨run, hlength, hrun, rfl⟩ := mem_labelRuns.mp hk
      exact ⟨run, List.ne_nil_of_length_eq_add_one hlength, hrun, rfl⟩
    · rintro ⟨run, hne, hrun, rfl⟩
      have hpos := List.length_pos_of_ne_nil hne
      have hle := hrun.length_le
      exact ⟨run.length - 1, by omega, mem_labelRuns.mpr ⟨run, by omega, hrun, rfl⟩⟩
  have hsingle : token ∈ labels → ∃ k < labels.length, token ∈ labelRuns labels (k + 1) :=
    fun h => ⟨0, List.length_pos_of_mem h, by rwa [labelRuns_one]⟩
  simp only [allRuns, List.mem_append, List.mem_flatMap, List.mem_range, ← hruns]
  exact or_iff_right_of_imp hsingle

theorem firstsOrdered_allRuns (hdots : ∀ label ∈ labels, '.' ∉ label.toList) :
    FirstsOrdered (Precedes labels) (allRuns labels) := by
  have hlabels := firstsOrdered_labelRuns hdots (Nat.one_pos)
  rw [labelRuns_one] at hlabels
  refine hlabels.append (.flatMap_range (fun k _ => firstsOrdered_labelRuns hdots k.succ_pos) ?_) ?_
  · intro k _ j hj s hs t ht
    refine Or.inl ?_
    rw [labelCount_of_mem hdots j.succ_pos hs, labelCount_of_mem hdots k.succ_pos ht]
    omega
  · -- the single labels are listed twice, and the second time none is new
    intro t ht hnew s hs
    obtain ⟨k, -, ht⟩ := List.mem_flatMap.mp ht
    rw [← labelRuns_one labels] at hs
    refine Or.inl ?_
    rw [labelCount_of_mem hdots Nat.one_pos hs, labelCount_of_mem hdots k.succ_pos ht]
    have hk : k ≠ 0 := by
      rintro rfl
      rw [labelRuns_one] at ht
      exact hnew ht
    omega

end

namespace DropsEnding

variable {server : String} {labels kept : List String}

theorem kept_prefix_labels (h : DropsEnding labels kept) : kept <+: labels := by
  cases h with
  | drops => exact List.prefix_append ..
  | single => exact List.prefix_rfl
  | keeps => exact List.prefix_rfl

theorem kept_ne_nil (h : DropsEnding labels kept) : kept ≠ [] := by
  cases h with
  | drops hne => exact hne
  | single => simp
  | keeps => simp

/-- The name of a server is a run of the labels that count, or it has more labels than these. -/
theorem mem_allRuns_or_lt (h : DropsEnding labels kept) (hlabels : HasLabels server labels) :
    server ∈ allRuns kept ∨ kept.length < labelCount server := by
  have hcount : labelCount server = labels.length := by
    rw [← hlabels.joined, labelCount, splitAll_joinWith rfl hlabels.nonempty hlabels.dotless]
  have hwhole (heq : labels = kept) : server ∈ allRuns kept :=
    mem_allRuns.mpr ⟨kept, h.kept_ne_nil, List.infix_rfl, heq ▸ hlabels.joined.symm⟩
  cases h with
  | drops => exact Or.inr (by simp [hcount])
  | single => exact Or.inl (hwhole rfl)
  | keeps => exact Or.inl (hwhole rfl)

/-- The name is new after all runs only if it has more labels than they have. -/
theorem firstsOrdered_tokens (h : DropsEnding labels kept) (hlabels : HasLabels server labels) :
    FirstsOrdered (Precedes kept) (allRuns kept ++ [server]) := by
  have hdots : ∀ label ∈ kept, '.' ∉ label.toList :=
    fun label hlabel => hlabels.dotless label (h.kept_prefix_labels.subset hlabel)
  refine (firstsOrdered_allRuns hdots).append (.singleton server) fun t ht hnew s hs => Or.inl ?_
  obtain rfl := List.mem_singleton.mp ht
  obtain ⟨run, hne, hrun, rfl⟩ := mem_allRuns.mp hs
  rw [labelCount, splitAll_run hdots hne hrun]
  exact hrun.length_le.trans_lt ((h.mem_allRuns_or_lt hlabels).resolve_left hnew)

end DropsEnding

theorem serverTokens_eq (url : String) :
    serverTokens url =
      (allRuns (serverLabels (serverName url)) ++ [serverName url]).foldl addNew [] := rfl

/-- The tokens of an address are the name of its server and the runs of neighbouring labels of that
name, joined by dots, where a last label of at most three bytes does not count beside others. Each
is listed once, those with fewer labels first, and of those with as many labels the one that is
found first from the left. -/
theorem serverTokens_precedes (url : String) :
    ∃ labels kept,
      ServedBy url (serverName url) ∧ HasLabels (serverName url) labels ∧
      DropsEnding labels kept ∧
      (serverTokens url).Nodup ∧
      (∀ token, token ∈ serverTokens url ↔
        token = serverName url ∨ ∃ run, run ≠ [] ∧ run <:+: kept ∧ token = joinWith "." run) ∧
      (serverTokens url).Pairwise (Precedes kept) := by
  have hlabels := hasLabels_splitAll (serverName url)
  have hdrops := dropsEnding_serverLabels (serverName url)
  have hpairwise := (hdrops.firstsOrdered_tokens hlabels).pairwise
  rw [← serverTokens_eq] at hpairwise
  refine ⟨_, _, servedBy_serverName url, hlabels, hdrops, hpairwise.imp Precedes.ne,
    fun token => ?_, hpairwise⟩
  rw [serverTokens_eq, mem_foldl_addNew, List.mem_append, mem_allRuns, List.mem_singleton, or_comm]

/-- A label that comes twice is listed once, and the last label counts in the whole name only. -/
example : serverTokens "http://a.b.a.io:80/x" = ["a", "b", "a.b", "b.a", "a.b.a", "a.b.a.io"] := by
  decide +kernel

end Colloquy
