import CodeSurvey.Proofs.Text.Parts
import CodeSurvey.Workflow.Category
import Mathlib.Data.List.Find

/-!
# How functions are put into categories

A function has the category of the longest word that its name begins with, in lower case and with or
without a lead-in (`IsLongest`). No word begins with a lead-in or is the beginning of one
(`words_apart`), so what stands at the front of a name is a word or a lead-in with a word after it,
but never both, and two words of one length that begin the same name are the same (`opens_unique`).
Hence the first hit of a table with longer words first is the longest word, however words of one
length are ordered, and a lead-in before a name that has none changes nothing
(`longest_word_tells_category`).

A group of functions has the known category that occurs most often, the earliest of these
(`dominant_is_earliest_mode`). The different categories are gone through in the order in which they
first occur, and a later one takes over only if it occurs more often, so that the one that leads is
behind those that occur less often and before those that do not occur more often (`LeadsAmong`).
-/

namespace CodeSurvey.Workflow.Category

/-! ## The word that a name begins with -/

/-- Characters that begin with a word, with or without a lead-in. -/
def Opens (word : String) (cs : List Char) : Prop :=
  word.toList <+: cs ∨ ∃ lead ∈ leadIns, (lead ++ word).toList <+: cs

instance (word : String) (cs : List Char) : Decidable (Opens word cs) :=
  inferInstanceAs (Decidable (_ ∨ _))

/-- The test for a name that begins with a word. -/
theorem beginsWith_iff {word name : String} :
    beginsWith word name = true ↔ Opens word name.toList := by
  simp only [beginsWith, Text.hasStart, Bool.or_eq_true, List.any_eq_true,
    List.isPrefixOf_iff_prefix, Opens]

/-! ### The table -/

-- Decided along the lists, not over all characters.
/-- The words are of ASCII characters. -/
theorem toNat_of_mem_words : ∀ w ∈ words, ∀ c ∈ w.1.toList, c.toNat < 128 := by
  have hall : words.all (fun w => w.1.toList.all (·.toNat < 128)) = true := by decide +kernel
  simpa only [List.all_eq_true, decide_eq_true_eq] using hall

/-- So are the lead-ins. -/
theorem toNat_of_mem_leadIns : ∀ lead ∈ leadIns, ∀ c ∈ lead.toList, c.toNat < 128 := by
  have hall : leadIns.all (fun lead => lead.toList.all (·.toNat < 128)) = true := by
    decide +kernel
  simpa only [List.all_eq_true, decide_eq_true_eq] using hall

/-- The lead-ins are in lower case. -/
theorem lower_of_mem_leadIns : ∀ lead ∈ leadIns,
    lead.toList.flatMap Text.lowerChar = lead.toList := by decide +kernel

/-- No word begins with a lead-in, or is the beginning of one. -/
theorem words_apart : ∀ lead ∈ leadIns, ∀ w ∈ words,
    ¬ lead.toList <+: w.1.toList ∧ ¬ w.1.toList <+: lead.toList := by decide +kernel

/-- No lead-in begins with another. -/
theorem leadIns_apart : ∀ lead ∈ leadIns, ∀ other ∈ leadIns,
    lead.toList <+: other.toList → lead = other := by decide +kernel

/-- No word is in the table twice. -/
theorem nodup_words : (words.map (·.1)).Nodup := by decide +kernel

/-- The words by length are the words of the table. -/
theorem wordsByLength_perm : wordsByLength.Perm words := by decide +kernel

/-- Among them the longer ones come first. -/
theorem pairwise_wordsByLength :
    wordsByLength.Pairwise fun v w => w.1.length ≤ v.1.length := by decide +kernel

/-! ### Words and lead-ins -/

variable {cs : List Char} {v w : String × Category}

/-- Characters do not begin with a word and with a lead-in as well. -/
theorem not_prefix_of_lead {lead : String} (hlead : lead ∈ leadIns) (hcs : lead.toList <+: cs)
    (hw : w ∈ words) : ¬ w.1.toList <+: cs := by
  intro hword
  obtain ⟨hnot, hnot'⟩ := words_apart lead hlead w hw
  exact (List.prefix_or_prefix_of_prefix hcs hword).elim hnot hnot'

/-- Characters begin with one lead-in at most. -/
theorem lead_unique {lead other : String} (hlead : lead ∈ leadIns) (hother : other ∈ leadIns)
    (hcs : lead.toList <+: cs) (hcs' : other.toList <+: cs) : lead = other := by
  rcases List.prefix_or_prefix_of_prefix hcs hcs' with h | h
  · exact leadIns_apart lead hlead other hother h
  · exact (leadIns_apart other hother lead hlead h).symm

/-- What begins with a lead-in and a word begins with the lead-in. -/
theorem prefix_of_append {lead word : String} (h : (lead ++ word).toList <+: cs) :
    lead.toList <+: cs := by
  rw [String.toList_append] at h
  exact (List.prefix_append _ _).trans h

/-- Without a lead-in the word itself stands at the front. -/
theorem opens_iff_of_no_lead (h : ∀ lead ∈ leadIns, ¬ lead.toList <+: cs) (word : String) :
    Opens word cs ↔ word.toList <+: cs := by
  refine or_iff_left ?_
  rintro ⟨lead, hlead, hcs⟩
  exact h lead hlead (prefix_of_append hcs)

/-- Behind a lead-in the word itself stands at the front. -/
theorem opens_append_iff {lead : String} (hlead : lead ∈ leadIns) (hw : w ∈ words) :
    Opens w.1 (lead.toList ++ cs) ↔ w.1.toList <+: cs := by
  have hfront : lead.toList <+: lead.toList ++ cs := List.prefix_append _ _
  constructor
  · rintro (h | ⟨other, hother, h⟩)
    · exact absurd h (not_prefix_of_lead hlead hfront hw)
    · obtain rfl := lead_unique hother hlead (prefix_of_append h) hfront
      rwa [String.toList_append, List.prefix_append_right_inj] at h
  · intro h
    refine .inr ⟨lead, hlead, ?_⟩
    rwa [String.toList_append, List.prefix_append_right_inj]

/-- Two words of one length that characters begin with are the same. -/
theorem opens_unique (hv : v ∈ words) (hw : w ∈ words) (hlength : v.1.length = w.1.length)
    (hopens : Opens v.1 cs) (hopens' : Opens w.1 cs) : v = w := by
  have hsame {ds : List Char} (h : v.1.toList <+: ds) (h' : w.1.toList <+: ds) : v = w := by
    have hword : v.1 = w.1 := by
      rw [← String.toList_inj]
      refine (List.prefix_of_prefix_length_le h h' ?_).eq_of_length ?_ <;>
        simp [String.length_toList, hlength]
    exact List.inj_on_of_nodup_map nodup_words hv hw hword
  by_cases hlead : ∃ lead ∈ leadIns, lead.toList <+: cs
  · -- What follows the lead-in begins with both words.
    obtain ⟨lead, hlead, ds, rfl⟩ := hlead
    exact hsame ((opens_append_iff hlead hv).1 hopens) ((opens_append_iff hlead hw).1 hopens')
  · have hno : ∀ lead ∈ leadIns, ¬ lead.toList <+: cs :=
      fun lead hmem hcs => hlead ⟨lead, hmem, hcs⟩
    exact hsame ((opens_iff_of_no_lead hno _).1 hopens) ((opens_iff_of_no_lead hno _).1 hopens')

/-! ### The longest word -/

/-- The longest of the words that a name begins with in lower case. -/
structure IsLongest (name : String) (w : String × Category) : Prop where
  mem : w ∈ words
  opens : Opens w.1 (Text.lower name).toList
  longest : ∀ v ∈ words, Opens v.1 (Text.lower name).toList → v.1.length ≤ w.1.length

variable {name : String}

/-- There is only one longest word. -/
theorem IsLongest.unique (hv : IsLongest name v) (hw : IsLongest name w) : v = w :=
  opens_unique hv.mem hw.mem
    (Nat.le_antisymm (hw.longest v hv.mem hv.opens) (hv.longest w hw.mem hw.opens))
    hv.opens hw.opens

/-- A table of words with longer words first. -/
structure IsSortedTable (table : List (String × Category)) : Prop where
  perm : table.Perm words
  sorted : table.Pairwise fun v w => w.1.length ≤ v.1.length

/-- The words by length are such a table. -/
theorem isSortedTable_wordsByLength : IsSortedTable wordsByLength :=
  ⟨wordsByLength_perm, pairwise_wordsByLength⟩

/-- The first word of a table that a name begins with. -/
def firstWord? (table : List (String × Category)) (name : String) : Option (String × Category) :=
  table.find? fun w => beginsWith w.1 (Text.lower name)

variable {table : List (String × Category)}

/-- Where longer words come first the first one that a name begins with is the longest. -/
theorem IsSortedTable.isLongest (h : IsSortedTable table) (hw : firstWord? table name = some w) :
    IsLongest name w := by
  obtain ⟨hopens, before, after, rfl, hbefore⟩ := List.find?_eq_some_iff_append.1 hw
  have hmem {v : String × Category} : v ∈ words ↔ v ∈ before ++ w :: after := h.perm.mem_iff.symm
  refine ⟨hmem.2 (by simp), beginsWith_iff.1 hopens, fun v hv hopens' => ?_⟩
  rcases List.mem_append.1 (hmem.1 hv) with hv | hv
  · -- What comes before the first one does not begin the name.
    have hnot := hbefore v hv
    rw [beginsWith_iff.2 hopens'] at hnot
    cases hnot
  · have hsorted := (List.pairwise_append.1 h.sorted).2.1
    rcases List.mem_cons.1 hv with rfl | hv
    · exact Nat.le_refl _
    · exact (List.pairwise_cons.1 hsorted).1 v hv

/-- There is no first word if the name begins with none. -/
theorem IsSortedTable.firstWord?_eq_none (h : IsSortedTable table) :
    firstWord? table name = none ↔ ∀ w ∈ words, ¬ Opens w.1 (Text.lower name).toList := by
  simp only [firstWord?, List.find?_eq_none, beginsWith_iff, h.perm.mem_iff]

/-- The first word is the longest one, and no other. -/
theorem IsSortedTable.firstWord?_eq_some (h : IsSortedTable table) :
    firstWord? table name = some w ↔ IsLongest name w := by
  refine ⟨h.isLongest, fun hw => ?_⟩
  cases hfirst : firstWord? table name with
  | none => exact absurd hw.opens (h.firstWord?_eq_none.1 hfirst w hw.mem)
  | some v => rw [(h.isLongest hfirst).unique hw]

/-- So it does not matter how words of one length are ordered. -/
theorem IsSortedTable.firstWord?_eq (h : IsSortedTable table) (name : String) :
    firstWord? table name = firstWord? wordsByLength name :=
  Option.ext fun w => by rw [h.firstWord?_eq_some, isSortedTable_wordsByLength.firstWord?_eq_some]

/-- The category that a word stands for, if there is one. -/
def ofWord (word? : Option (String × Category)) : Category := (word?.map (·.2)).getD unknown

/-- The category is that of the first word by length. -/
theorem ofFunctionName_eq (name : String) :
    ofFunctionName name = ofWord (firstWord? wordsByLength name) := by
  unfold ofFunctionName firstWord?
  dsimp only
  generalize wordsByLength.find? (fun w => beginsWith w.1 (Text.lower name)) = word?
  cases word? <;> rfl

/-! ### Lead-ins before a name -/

/-- A name in lower case, character by character. -/
def folded (name : String) : List Char := name.toList.flatMap Text.lowerChar

/-- A name in lower case begins with ASCII characters if it does so character by character. -/
theorem prefix_lower_iff {word : String} (h : ∀ c ∈ word.toList, c.toNat < 128) (name : String) :
    word.toList <+: (Text.lower name).toList ↔ word.toList <+: folded name := by
  rw [Text.lower, String.toList_ofList, Text.prefix_lowerChars_iff h, folded]

/-- So it begins with a word, with or without a lead-in. -/
theorem opens_lower_iff (hw : w ∈ words) (name : String) :
    Opens w.1 (Text.lower name).toList ↔ Opens w.1 (folded name) := by
  have hword := toNat_of_mem_words w hw
  have hleads : ∀ lead ∈ leadIns, ∀ c ∈ (lead ++ w.1).toList, c.toNat < 128 := by
    intro lead hlead
    rw [String.toList_append, List.forall_mem_append]
    exact ⟨toNat_of_mem_leadIns lead hlead, hword⟩
  refine or_congr (prefix_lower_iff hword name) (exists_congr fun lead => ?_)
  exact and_congr_right fun hlead => prefix_lower_iff (hleads lead hlead) name

/-- A lead-in is left as it is. -/
theorem folded_append {lead : String} (hlead : lead ∈ leadIns) (name : String) :
    folded (lead ++ name) = lead.toList ++ folded name := by
  rw [folded, String.toList_append, List.flatMap_append, lower_of_mem_leadIns lead hlead, folded]

/-- The category is that of the first word that the name begins with, character by character. -/
theorem ofFunctionName_eq_folded (name : String) :
    ofFunctionName name = ofWord (wordsByLength.find? fun w => Opens w.1 (folded name)) := by
  rw [ofFunctionName_eq, firstWord?]
  refine congrArg ofWord (List.find?_congr fun w hw => ?_)
  rw [Bool.eq_iff_iff, beginsWith_iff, opens_lower_iff (wordsByLength_perm.mem_iff.1 hw),
    decide_eq_true_eq]

/-- If words without a lead-in count only, it is that of the first word at the front. -/
theorem find?_opens_eq {ds : List Char} (h : ∀ w ∈ words, Opens w.1 cs ↔ w.1.toList <+: ds) :
    (wordsByLength.find? fun w => Opens w.1 cs) =
      wordsByLength.find? fun w => w.1.toList <+: ds :=
  List.find?_congr fun w hw => decide_eq_decide.2 (h w (wordsByLength_perm.mem_iff.1 hw))

/-- The category of a name with a lead-in before it is told by the word at the front of the name. -/
theorem ofFunctionName_append {lead : String} (hlead : lead ∈ leadIns) (name : String) :
    ofFunctionName (lead ++ name) =
      ofWord (wordsByLength.find? fun w => w.1.toList <+: folded name) := by
  rw [ofFunctionName_eq_folded, folded_append hlead,
    find?_opens_eq fun w hw => opens_append_iff hlead hw]

/-- A lead-in before a name that has none changes nothing. -/
theorem ofFunctionName_append_of_no_lead {lead : String} (hlead : lead ∈ leadIns)
    (hno : ∀ other ∈ leadIns, ¬ other.toList <+: (Text.lower name).toList) :
    ofFunctionName (lead ++ name) = ofFunctionName name := by
  have hno' : ∀ other ∈ leadIns, ¬ other.toList <+: folded name := fun other hother h =>
    hno other hother ((prefix_lower_iff (toNat_of_mem_leadIns other hother) name).2 h)
  rw [ofFunctionName_append hlead, ofFunctionName_eq_folded,
    find?_opens_eq fun w _ => opens_iff_of_no_lead hno' w.1]

/-- Behind two lead-ins no word is looked for. -/
theorem ofFunctionName_append_of_lead {lead other : String} (hlead : lead ∈ leadIns)
    (hother : other ∈ leadIns) (hname : other.toList <+: (Text.lower name).toList) :
    ofFunctionName (lead ++ name) = unknown := by
  have hfront : other.toList <+: folded name :=
    (prefix_lower_iff (toNat_of_mem_leadIns other hother) name).1 hname
  have hnone : (wordsByLength.find? fun w => w.1.toList <+: folded name) = none := by
    refine List.find?_eq_none.2 fun w hw => ?_
    rw [decide_eq_true_eq]
    exact not_prefix_of_lead hother hfront (wordsByLength_perm.mem_iff.1 hw)
  rw [ofFunctionName_append hlead, hnone]
  rfl

/-- A function has the category of the longest word that its name begins with in lower case, with
or without a lead-in, and none if there is no such word. There is one longest word at most, so that
the order of words of one length does not matter. A lead-in that is put before a name changes
nothing, unless the name has one already: then no word is found. -/
theorem longest_word_tells_category (name : String) :
    ((∃ w, IsLongest name w ∧ ofFunctionName name = w.2) ∨
      (∀ w ∈ words, ¬ Opens w.1 (Text.lower name).toList) ∧ ofFunctionName name = unknown) ∧
    (∀ v w, IsLongest name v → IsLongest name w → v = w) ∧
    (∀ table, IsSortedTable table → ofFunctionName name = ofWord (firstWord? table name)) ∧
    (∀ lead ∈ leadIns, (∀ other ∈ leadIns, ¬ other.toList <+: (Text.lower name).toList) →
      ofFunctionName (lead ++ name) = ofFunctionName name) ∧
    ∀ lead ∈ leadIns, ∀ other ∈ leadIns, other.toList <+: (Text.lower name).toList →
      ofFunctionName (lead ++ name) = unknown := by
  refine ⟨?_, fun v w => IsLongest.unique, fun table h => ?_, fun lead hlead =>
    ofFunctionName_append_of_no_lead hlead, fun lead hlead other hother =>
    ofFunctionName_append_of_lead hlead hother⟩
  · rw [ofFunctionName_eq]
    cases hfirst : firstWord? wordsByLength name with
    | none => exact .inr ⟨isSortedTable_wordsByLength.firstWord?_eq_none.1 hfirst, rfl⟩
    | some w => exact .inl ⟨w, isSortedTable_wordsByLength.isLongest hfirst, rfl⟩
  · rw [ofFunctionName_eq, h.firstWord?_eq]

/-- The longer words first, and words of one length from the last one to the first. -/
def wordsFromLast : List (String × Category) :=
  words.reverse.mergeSort fun v w => w.1.length ≤ v.1.length

/-- They are such a table as well. -/
theorem isSortedTable_wordsFromLast : IsSortedTable wordsFromLast where
  perm := (List.mergeSort_perm _ _).trans (List.reverse_perm _)
  sorted := by
    have htrans (u v w : String × Category) : decide (v.1.length ≤ u.1.length) →
        decide (w.1.length ≤ v.1.length) → decide (w.1.length ≤ u.1.length) := by
      simp only [decide_eq_true_eq]
      omega
    have htotal (v w : String × Category) :
        decide (w.1.length ≤ v.1.length) || decide (v.1.length ≤ w.1.length) := by
      simp only [Bool.or_eq_true, decide_eq_true_eq]
      omega
    exact (List.pairwise_mergeSort htrans htotal words.reverse).imp of_decide_eq_true

/-- A name that begins with `checkout` begins with `check` too, and has the category of the longer
word. A lead-in changes nothing, but two of them hide the word. -/
theorem checkout_is_told_before_check :
    IsLongest "checkoutCart" ("checkout", payment) ∧ ofFunctionName "checkoutCart" = payment ∧
    ofWord (firstWord? wordsFromLast "checkoutCart") = payment ∧
    ofFunctionName ("perform" ++ "checkoutCart") = payment ∧
    ofFunctionName ("do" ++ "onCheckout") = unknown := by
  have hlongest : IsLongest "checkoutCart" ("checkout", payment) := by
    constructor <;> decide +kernel
  obtain ⟨htold, hunique, htable, hlead, -⟩ := longest_word_tells_category "checkoutCart"
  have hcategory : ofFunctionName "checkoutCart" = payment := by
    obtain ⟨w, hw, hcategory⟩ | ⟨hnone, -⟩ := htold
    · rw [hcategory, hunique w _ hw hlongest]
    · exact absurd hlongest.opens (hnone _ hlongest.mem)
  refine ⟨hlongest, hcategory, ?_, ?_, ?_⟩
  · rw [← htable wordsFromLast isSortedTable_wordsFromLast, hcategory]
  · rw [hlead "perform" (by decide) (by decide +kernel), hcategory]
  · exact (longest_word_tells_category "onCheckout").2.2.2.2 "do" (by decide) "on" (by decide)
      (by decide +kernel)

/-- A name in which the lead-in is written in capitals does not begin with it as it stands, but a
second lead-in hides its word all the same. -/
theorem capital_lead_in_hides_word :
    ¬ ∀ name, ∀ lead ∈ leadIns, (∀ other ∈ leadIns, ¬ other.toList <+: name.toList) →
      ofFunctionName (lead ++ name) = ofFunctionName name := by
  intro h
  have hsame := h "OnLogin" "do" (by decide) (by decide)
  have hlogin : ofFunctionName "OnLogin" = authentication := by decide +kernel
  have hfront : "on".toList <+: (Text.lower "OnLogin").toList := by decide +kernel
  have hhidden : ofFunctionName ("do" ++ "OnLogin") = unknown :=
    ofFunctionName_append_of_lead (by decide) (by decide) hfront
  rw [hlogin, hhidden] at hsame
  cases hsame

/-! ## The category of a group -/

section Scan

variable {α : Type} {score : α → Nat} {xs : List α}

/-- One step of a search for the highest score: an element takes the place of the best one so far,
which is held with its score, if its own score is higher. -/
def advance (score : α → Nat) (best : α × Nat) (x : α) : α × Nat :=
  if best.2 < score x then (x, score x) else best

/-- The first of the elements with the highest score, held with this score. -/
def LeadsAmong (score : α → Nat) (xs : List α) (best : α × Nat) : Prop :=
  ∃ before after, xs = before ++ best.1 :: after ∧ best.2 = score best.1 ∧
    (∀ x ∈ before, score x < best.2) ∧ ∀ x ∈ after, score x ≤ best.2

/-- What leads still leads if a further element has no higher score, and else this element does. -/
theorem LeadsAmong.advance {best : α × Nat} (h : LeadsAmong score xs best) (x : α) :
    LeadsAmong score (xs ++ [x]) (advance score best x) := by
  obtain ⟨before, after, rfl, hscore, hbefore, hafter⟩ := h
  unfold Category.advance
  split_ifs with hx
  · refine ⟨before ++ best.1 :: after, [], rfl, rfl, fun y hy => ?_, by simp⟩
    rcases List.mem_append.1 hy with hy | hy
    · exact (hbefore y hy).trans hx
    · rcases List.mem_cons.1 hy with rfl | hy
      · exact hscore ▸ hx
      · exact (hafter y hy).trans_lt hx
  · refine ⟨before, after ++ [x], by simp, hscore, hbefore, fun y hy => ?_⟩
    rcases List.mem_append.1 hy with hy | hy
    · exact hafter y hy
    · obtain rfl := List.mem_singleton.1 hy
      exact Nat.le_of_not_lt hx

/-- Among elements whose scores are all above the one at the start, a search ends with the one that
leads. -/
theorem leadsAmong_foldl (start : α × Nat) (hne : xs ≠ []) (hstart : ∀ x ∈ xs, start.2 < score x) :
    LeadsAmong score xs (xs.foldl (advance score) start) := by
  induction xs using List.reverseRecOn with
  | nil => exact absurd rfl hne
  | append_singleton xs x ih =>
    rw [List.foldl_concat]
    by_cases hxs : xs = []
    · -- The first element takes the place of the start.
      subst hxs
      have hfirst : advance score start x = (x, score x) :=
        if_pos (hstart x (List.mem_singleton_self x))
      rw [List.foldl_nil, hfirst]
      exact ⟨[], [], rfl, rfl, by simp, by simp⟩
    · exact (ih hxs fun y hy => hstart y (List.mem_append_left _ hy)).advance x

end Scan

/-- The earliest of the known categories that occur most often in a list. -/
structure IsEarliestMode (cs : List Category) (c : Category) : Prop where
  known : c ≠ unknown
  there : c ∈ cs
  /-- No known category occurs more often. -/
  most : ∀ d ∈ cs, d ≠ unknown → cs.count d ≤ cs.count c
  /-- None that occurs as often occurs earlier. -/
  earliest : ∀ d ∈ cs, d ≠ unknown → cs.count d = cs.count c → cs.idxOf c ≤ cs.idxOf d

variable {cs : List Category}

/-- Of two categories that occur equally often one is the earlier one. -/
theorem IsEarliestMode.unique {c d : Category} (hc : IsEarliestMode cs c)
    (hd : IsEarliestMode cs d) : c = d := by
  have hcount : cs.count c = cs.count d :=
    Nat.le_antisymm (hd.most c hc.there hc.known) (hc.most d hd.there hd.known)
  have hplace : cs.idxOf c = cs.idxOf d :=
    Nat.le_antisymm (hc.earliest d hd.there hd.known hcount.symm)
      (hd.earliest c hc.there hc.known hcount)
  exact (List.idxOf_inj hc.there).1 hplace

/-- The known ones of a list of categories. -/
def knownAmong (cs : List Category) : List Category := cs.filter (· != unknown)

/-- The known ones are all but the unknown. -/
theorem mem_knownAmong {c : Category} : c ∈ knownAmong cs ↔ c ∈ cs ∧ c ≠ unknown := by
  rw [knownAmong, List.mem_filter, bne_iff_ne]

/-- A known category occurs as often among them. -/
theorem count_knownAmong {c : Category} (hc : c ≠ unknown) :
    (knownAmong cs).count c = cs.count c :=
  List.count_filter (bne_iff_ne.2 hc)

/-- The different known categories stand in the order in which they first occur. -/
theorem pairwise_distinct_knownAmong (cs : List Category) :
    (Text.distinct (knownAmong cs)).Pairwise fun c d => cs.idxOf c < cs.idxOf d := by
  rw [knownAmong, Text.distinct_filter]
  exact (Text.pairwise_distinct cs).filter _

/-- The dominant category is what a search among the different known ones ends with. -/
theorem dominant_eq (cs : List Category) :
    dominant cs = ((Text.distinct (knownAmong cs)).foldl (advance (knownAmong cs).count)
      (unknown, 0)).1 := rfl

/-- Without known ones the dominant category is unknown. -/
theorem dominant_of_knownAmong_nil (h : knownAmong cs = []) : dominant cs = unknown := by
  rw [dominant_eq, h]
  rfl

/-- If there is a known category, the dominant one stands among the different ones behind those that
occur less often, and before those that do not occur more often. -/
theorem exists_around_dominant (h : knownAmong cs ≠ []) :
    ∃ before after, Text.distinct (knownAmong cs) = before ++ dominant cs :: after ∧
      (∀ d ∈ before, cs.count d < cs.count (dominant cs)) ∧
      ∀ d ∈ after, cs.count d ≤ cs.count (dominant cs) := by
  have hne : Text.distinct (knownAmong cs) ≠ [] := by
    obtain ⟨c, hc⟩ := List.exists_mem_of_ne_nil _ h
    exact List.ne_nil_of_mem (Text.mem_distinct.2 hc)
  have hpos : ∀ c ∈ Text.distinct (knownAmong cs), 0 < (knownAmong cs).count c :=
    fun c hc => List.count_pos_iff.2 (Text.mem_distinct.1 hc)
  obtain ⟨before, after, heq, hscore, hbefore, hafter⟩ :=
    leadsAmong_foldl (unknown, 0) hne hpos
  rw [← dominant_eq] at heq hscore
  -- All of these are known, so that they occur as often among all categories.
  have hcount : ∀ d ∈ before ++ dominant cs :: after, (knownAmong cs).count d = cs.count d :=
    fun d hd => count_knownAmong (mem_knownAmong.1 (Text.mem_distinct.1 (heq ▸ hd))).2
  simp only [List.forall_mem_append, List.forall_mem_cons] at hcount
  obtain ⟨hcountBefore, hcountBest, hcountAfter⟩ := hcount
  refine ⟨before, after, heq, fun d hd => ?_, fun d hd => ?_⟩
  · calc cs.count d = (knownAmong cs).count d := (hcountBefore d hd).symm
      _ < (knownAmong cs).count (dominant cs) := (hbefore d hd).trans_eq hscore
      _ = cs.count (dominant cs) := hcountBest
  · calc cs.count d = (knownAmong cs).count d := (hcountAfter d hd).symm
      _ ≤ (knownAmong cs).count (dominant cs) := (hafter d hd).trans_eq hscore
      _ = cs.count (dominant cs) := hcountBest

/-- If there is a known category, the dominant one is the earliest of those that occur most
often. -/
theorem isEarliestMode_dominant (h : knownAmong cs ≠ []) : IsEarliestMode cs (dominant cs) := by
  obtain ⟨before, after, heq, hbefore, hafter⟩ := exists_around_dominant h
  have hmem (d : Category) :
      d ∈ cs ∧ d ≠ unknown ↔ d ∈ before ∨ d = dominant cs ∨ d ∈ after := by
    rw [← mem_knownAmong, ← Text.mem_distinct, heq, List.mem_append, List.mem_cons]
  have hordered := pairwise_distinct_knownAmong cs
  rw [heq, List.pairwise_append, List.pairwise_cons] at hordered
  obtain ⟨-, ⟨hlater, -⟩, -⟩ := hordered
  obtain ⟨hthere, hknown⟩ := (hmem (dominant cs)).2 (.inr (.inl rfl))
  refine ⟨hknown, hthere, fun d hd hd' => ?_, fun d hd hd' hcount => ?_⟩
  · rcases (hmem d).1 ⟨hd, hd'⟩ with h | rfl | h
    · exact (hbefore d h).le
    · exact le_rfl
    · exact hafter d h
  · rcases (hmem d).1 ⟨hd, hd'⟩ with h | h | h
    · -- What stands before the dominant category occurs less often.
      exact absurd hcount (hbefore d h).ne
    · exact h ▸ le_rfl
    · exact (hlater d h).le

/-- A list of categories is `unknown` if all of them are; else its category is the known one that
occurs most often, the earliest of these. Where else `unknown` stands makes no difference. -/
theorem dominant_is_earliest_mode (cs : List Category) :
    (dominant cs = unknown ↔ ∀ d ∈ cs, d = unknown) ∧
    (∀ c, IsEarliestMode cs c ↔ c ≠ unknown ∧ dominant cs = c) ∧
    ∀ front rest, dominant (front ++ unknown :: rest) = dominant (front ++ rest) := by
  have hnil : knownAmong cs = [] ↔ ∀ d ∈ cs, d = unknown := by
    rw [knownAmong, List.filter_eq_nil_iff]
    simp only [bne_iff_ne, ne_eq, not_not]
  refine ⟨?_, ?_, ?_⟩
  · rw [← hnil]
    refine ⟨fun h => ?_, dominant_of_knownAmong_nil⟩
    by_contra hne
    exact (isEarliestMode_dominant hne).known h
  · intro c
    constructor
    · intro hc
      have hne : knownAmong cs ≠ [] := List.ne_nil_of_mem (mem_knownAmong.2 ⟨hc.there, hc.known⟩)
      exact ⟨hc.known, (isEarliestMode_dominant hne).unique hc⟩
    · rintro ⟨hc, rfl⟩
      exact isEarliestMode_dominant fun h => hc (dominant_of_knownAmong_nil h)
  · intro front rest
    -- The known ones are the same with `unknown` and without it.
    have hsame : knownAmong (front ++ unknown :: rest) = knownAmong (front ++ rest) := by
      rw [knownAmong, knownAmong, List.filter_append, List.filter_append,
        List.filter_cons_of_neg (by simp)]
    rw [dominant_eq, dominant_eq, hsame]

example : dominant [unknown, crud, payment, unknown, unknown, payment, crud] = crud := by decide

end CodeSurvey.Workflow.Category
