import CodeSurvey.Proofs.DataModel.TypeText
import CodeSurvey.Proofs.Text.Nesting

/-!
# What a union is made of

The alternatives of a union stand between bars, each with a space on either side (`toList_union`).
No qualifier reaches from one into another, so that the plain type is made of the plain alternatives
in the same way (`plainChars_union`); and whether a type leads to an entity is told by its
alternatives one by one (`anyRefers_barred`).
-/

namespace CodeSurvey.DataModel

open CodeSurvey.Text

variable {cs ds before after kept q rest : List Char}

/-- An alternative of a union. Whichever brackets are looked at, the round ones are among them, and
they come in pairs. -/
structure Alternative where
  text : String
  brackets : Brackets
  text_ne : text ≠ ""
  trimmed : stripBlanks text.toList = text.toList
  no_bar : '|' ∉ text.toList
  round_mem : ('(', ')') ∈ brackets.pairs
  nested : brackets.IsNested text.toList

/-- The union of some alternatives, in this order. -/
def union (ms : List Alternative) : String := join " | " (ms.map Alternative.text)

/-- Texts with bars between them. -/
def barred (first : List Char) (middle : List (List Char)) (last : List Char) : List Char :=
  first ++ '|' :: (middle.flatMap (· ++ ['|']) ++ last)

/-- A text between spaces. -/
def spaced (cs : List Char) : List Char := ' ' :: (cs ++ [' '])

/-- The first of several texts stands before the first bar. -/
theorem barred_cons (first second last : List Char) (middle : List (List Char)) :
    barred first (second :: middle) last = first ++ '|' :: barred second middle last := by
  simp [barred]

/-- A union is its alternatives with bars between them and spaces around these. -/
theorem toList_union (a b : Alternative) (middle : List Alternative) :
    (union (a :: (middle ++ [b]))).toList =
      barred (a.text.toList ++ [' ']) (middle.map fun m => spaced m.text.toList)
        (' ' :: b.text.toList) := by
  induction middle generalizing a with
  | nil => simp [union, barred, toList_join]
  | cons m middle ih =>
    have hjoin : union (a :: (m :: middle ++ [b])) =
        a.text ++ " | " ++ union (m :: (middle ++ [b])) := join_cons_cons ..
    rw [hjoin, String.toList_append, String.toList_append, ih]
    simp [barred, spaced]

/-! ## Qualifiers -/

/-- Each `import(` of a text is closed in it. -/
def ImportsClose (cs : List Char) : Prop :=
  ∀ before after, cs = before ++ ("import(".toList ++ after) → ')' ∈ after

/-- The rest of a text whose imports are closed closes its imports. -/
theorem ImportsClose.of_append (h : ImportsClose (before ++ rest)) : ImportsClose rest := by
  rintro inner after rfl
  exact h (before ++ inner) after (List.append_assoc _ _ _).symm

/-- The bracket that opens an import is closed in an alternative. -/
theorem Alternative.importsClose (m : Alternative) : ImportsClose m.text.toList := by
  intro before after heq
  have hopen : before ++ ("import(".toList ++ after) =
      before ++ "import".toList ++ '(' :: after := by simp
  have hread := Brackets.isNested_iff_unclosed?.1 m.nested
  rw [heq, hopen, Brackets.unclosed?_append] at hread
  obtain ⟨pending, -, hread⟩ := Option.bind_eq_some_iff.1 hread
  rw [Brackets.unclosed?_opening m.round_mem] at hread
  cases Brackets.closes_of_unclosed? hread with
  | cons hinner hrest => exact List.mem_append_right _ List.mem_cons_self

/-- There is only one text that is without the qualifiers. -/
theorem DropsTo.eq (h : DropsTo cs kept) : dropQualifiers cs = kept := by
  -- By the way in which the text is without them: at each character a qualifier begins or not.
  induction h with
  | nil => rw [dropQualifiers]
  | @qualifier q rest kept hq _ ih =>
    have hafter : afterQualifier? (q ++ rest) = some rest :=
      afterQualifier?_eq_some_iff.2 ⟨q, hq, rfl⟩
    obtain ⟨c, tail, hcons⟩ : ∃ c tail, q ++ rest = c :: tail := by
      obtain ⟨name, -, rfl⟩ := hq
      exact ⟨_, _, rfl⟩
    rw [hcons] at hafter ⊢
    rw [dropQualifiers]
    split
    · rename_i after h
      rw [hafter, Option.some.injEq] at h
      rw [← h, ih]
    · rename_i h
      rw [hafter] at h
      cases h
  | @char c rest kept hnone _ ih =>
    rw [dropQualifiers]
    split
    · rename_i after h
      obtain ⟨q, hq, heq⟩ := afterQualifier?_eq_some_iff.1 h
      exact absurd ⟨after, heq.symm⟩ (hnone q hq)
    · rw [ih]

/-- No character comes in. -/
theorem DropsTo.subset (h : DropsTo cs kept) : kept ⊆ cs := by
  induction h with
  | nil => exact List.Subset.refl []
  | @qualifier q rest kept _ _ ih => exact List.Subset.trans ih (List.subset_append_right q rest)
  | @char c rest kept _ _ ih => exact List.cons_subset_cons c ih

/-- No qualifier begins in front of a space or a bar. -/
theorem not_prefix_of_isQualifier {c : Char} (hq : IsQualifier q) (hc : c ≠ 'i') :
    ¬ q <+: c :: cs := by
  obtain ⟨name, -, rfl⟩ := hq
  rintro ⟨after, heq⟩
  exact hc (List.cons.inj heq).1.symm

/-- A text in which each import is closed is without its qualifiers what it is, whatever follows the
space behind it. -/
theorem DropsTo.append_space {kept' : List Char} (h : DropsTo cs kept) (hclose : ImportsClose cs)
    (hrest : DropsTo rest kept') : DropsTo (cs ++ ' ' :: rest) (kept ++ ' ' :: kept') := by
  induction h with
  | nil => exact .char (fun q hq => not_prefix_of_isQualifier hq (by decide)) hrest
  | @qualifier q cs kept hq _ ih =>
    rw [List.append_assoc]
    exact .qualifier hq (ih hclose.of_append)
  | @char c cs kept hnone _ ih =>
    have hcs : ImportsClose ([c] ++ cs) := hclose
    refine .char (fun q hq hprefix => ?_) (ih hcs.of_append)
    -- The qualifier would end in the text, since its import is closed there.
    obtain ⟨name, hname, rfl⟩ := hq
    obtain ⟨tail, htail⟩ : "import(".toList ++ name ++ ").".toList <+: c :: cs ++ ' ' :: rest :=
      hprefix
    have himport : "import(".toList <+: c :: cs ++ ' ' :: rest :=
      ⟨name ++ (").".toList ++ tail), by rw [← htail]; simp⟩
    obtain ⟨after, hafter⟩ := (prefix_append_cons_iff (by decide)).1 himport
    obtain ⟨name', more, rfl, hname'⟩ := List.eq_append_cons_of_mem (hclose [] after hafter.symm)
    have hparts : name ++ ')' :: '.' :: tail = name' ++ ')' :: (more ++ ' ' :: rest) := by
      rw [← hafter] at htail
      have hsame : "import(".toList ++ (name ++ ')' :: '.' :: tail) =
          "import(".toList ++ (name' ++ ')' :: (more ++ ' ' :: rest)) := by simpa using htail
      exact List.append_cancel_left hsame
    obtain ⟨rfl, hmore⟩ := append_inj_of_front (p := (· != ')')) hparts (bne_of_notMem hname)
      (by simp) (bne_of_notMem hname') (by simp)
    have hmore : '.' :: tail = more ++ ' ' :: rest := (List.cons.inj hmore).2
    cases more with
    | nil => cases hmore
    | cons d more =>
      obtain ⟨rfl, -⟩ := List.cons.inj hmore
      exact hnone _ ⟨name, hname, rfl⟩ ⟨more, by rw [← hafter]; simp⟩

/-- The qualifiers of a union are those of its alternatives. -/
theorem dropsTo_barred {first : List Char} {middle : List (List Char)}
    (hfirst : ImportsClose first) (hmiddle : ∀ m ∈ middle, ImportsClose m) (last : List Char) :
    DropsTo (barred (first ++ [' ']) (middle.map spaced) (' ' :: last))
      (barred (dropQualifiers first ++ [' ']) ((middle.map dropQualifiers).map spaced)
        (' ' :: dropQualifiers last)) := by
  have hbar {rest kept' : List Char} (h : DropsTo rest kept') :
      DropsTo ('|' :: ' ' :: rest) ('|' :: ' ' :: kept') :=
    .char (fun q hq => not_prefix_of_isQualifier hq (by decide))
      (.char (fun q hq => not_prefix_of_isQualifier hq (by decide)) h)
  have hdrops := dropsTo_dropQualifiers first
  induction middle generalizing first with
  | nil => simpa [barred] using hdrops.append_space hfirst (hbar (dropsTo_dropQualifiers last))
  | cons m middle ih =>
    obtain ⟨hm, hmiddle⟩ := List.forall_mem_cons.1 hmiddle
    have hrest := ih hm hmiddle (dropsTo_dropQualifiers m)
    rw [List.map_cons, List.map_cons, List.map_cons, barred_cons, barred_cons]
    simpa [barred, spaced] using hdrops.append_space hfirst (hbar hrest)

/-- White space is collapsed in each of the texts between bars by itself. -/
theorem collapseBlanks_barred (first last : List Char) (middle : List (List Char)) :
    collapseBlanks (barred first middle last) =
      barred (collapseBlanks first) (middle.map collapseBlanks) (collapseBlanks last) := by
  have hbar : isBlank '|' = false := by decide
  induction middle generalizing first with
  | nil => simpa [barred] using collapseBlanks_append_cons hbar first last
  | cons m middle ih =>
    rw [List.map_cons, barred_cons, barred_cons, collapseBlanks_append_cons hbar, ih]

/-- White space is stripped from the front of the first text and from the end of the last one. -/
theorem stripBlanks_barred (first last : List Char) (middle : List (List Char)) :
    stripBlanks (barred first middle last) =
      barred (first.dropWhile isBlank) middle (dropEndWhile isBlank last) := by
  have hbar : isBlank '|' = false := by decide
  have hlast : dropEndWhile isBlank (middle.flatMap (· ++ ['|']) ++ last) =
      middle.flatMap (· ++ ['|']) ++ dropEndWhile isBlank last := by
    induction middle with
    | nil => rfl
    | cons m middle ih =>
      have hstrip := dropEndWhile_append_cons hbar m (middle.flatMap (· ++ ['|']) ++ last)
      rw [ih] at hstrip
      simpa using hstrip
  rw [barred, stripBlanks_around hbar, hlast, barred]

/-- White space around a text makes no difference for its plain form. -/
theorem stripBlanks_collapseBlanks_append (hbefore : ∀ c ∈ before, isBlank c = true)
    (hafter : ∀ c ∈ after, isBlank c = true) (cs : List Char) :
    stripBlanks (collapseBlanks (before ++ cs ++ after)) = stripBlanks (collapseBlanks cs) :=
  calc stripBlanks (collapseBlanks (before ++ cs ++ after))
      = collapseBlanks (stripBlanks (before ++ cs ++ after)) := stripBlanks_collapseBlanks _
    _ = collapseBlanks (stripBlanks cs) := by rw [stripBlanks_append_blanks hbefore hafter]
    _ = stripBlanks (collapseBlanks cs) := (stripBlanks_collapseBlanks cs).symm

/-- The plain form of an alternative. -/
def Alternative.plain (m : Alternative) : List Char := plainChars m.text.toList

/-- The plain form of an alternative in the middle of a union, with the white space around it. -/
def Alternative.piece (m : Alternative) : List Char :=
  collapseBlanks (spaced (dropQualifiers m.text.toList))

/-- Without the white space around it the piece of an alternative is its plain form. -/
theorem Alternative.stripBlanks_piece (m : Alternative) : stripBlanks m.piece = m.plain := by
  have hspace : ∀ c ∈ [' '], isBlank c = true := List.forall_mem_singleton.2 rfl
  exact stripBlanks_collapseBlanks_append hspace hspace (dropQualifiers m.text.toList)

/-- No bar comes into an alternative. -/
theorem Alternative.bar_notMem (m : Alternative) : '|' ∉ m.plain ∧ '|' ∉ m.piece := by
  have hblank (c : Char) (hc : isBlank c = true) : (c == '|') = false := by
    rw [beq_eq_false_iff_ne]
    rintro rfl
    cases hc
  -- White space is all that changes between the forms of a text, so no bar is put in.
  have hbar {cs ds : List Char} (h : cs.filter (· == '|') = ds.filter (· == '|')) :
      '|' ∈ cs → '|' ∈ ds := by
    intro hmem
    have hfilter : '|' ∈ cs.filter (· == '|') := List.mem_filter.2 ⟨hmem, by simp⟩
    rw [h] at hfilter
    exact List.mem_of_mem_filter hfilter
  have htext : '|' ∉ dropQualifiers m.text.toList :=
    fun h => m.no_bar ((dropsTo_dropQualifiers _).subset h)
  constructor
  · intro h
    exact htext (hbar (filter_collapseBlanks hblank _) (hbar (filter_stripBlanks hblank _) h))
  · intro h
    have hspaced := hbar (filter_collapseBlanks hblank _) h
    simp only [spaced, List.mem_cons, List.mem_append, List.not_mem_nil, or_false] at hspaced
    rcases hspaced with h | h | h
    · cases h
    · exact htext h
    · cases h

/-- The plain form of a union is made of those of its alternatives, with white space between. -/
theorem plainChars_union (a b : Alternative) (middle : List Alternative) : ∃ after before,
    (∀ c ∈ after, isBlank c = true) ∧ (∀ c ∈ before, isBlank c = true) ∧
      plainChars (union (a :: (middle ++ [b]))).toList =
        barred (a.plain ++ after) (middle.map Alternative.piece) (before ++ b.plain) := by
  have hclose : ∀ m ∈ middle.map fun m => m.text.toList, ImportsClose m := by
    intro m hm
    obtain ⟨m, -, rfl⟩ := List.mem_map.1 hm
    exact m.importsClose
  have hdrops := (dropsTo_barred a.importsClose hclose b.text.toList).eq
  simp only [List.map_map, Function.comp_def] at hdrops
  have hspace : ∀ c ∈ [' '], isBlank c = true := List.forall_mem_singleton.2 rfl
  -- Next to the bars one blank may be left over at the end of the first and the start of the last
  -- alternative.
  obtain ⟨after, hafter, hafter'⟩ :=
    exists_dropWhile_isBlank (collapseBlanks (dropQualifiers a.text.toList ++ [' ']))
  obtain ⟨before, hbefore, hbefore'⟩ :=
    exists_dropEndWhile_isBlank (collapseBlanks (' ' :: dropQualifiers b.text.toList))
  have ha : stripBlanks (collapseBlanks (dropQualifiers a.text.toList ++ [' '])) = a.plain :=
    @stripBlanks_collapseBlanks_append [] _ (List.forall_mem_nil _) hspace _
  have hb : stripBlanks (collapseBlanks (' ' :: dropQualifiers b.text.toList)) = b.plain := by
    have h := stripBlanks_collapseBlanks_append hspace (List.forall_mem_nil _)
      (dropQualifiers b.text.toList)
    rwa [List.append_nil] at h
  refine ⟨after, before, hafter', hbefore', ?_⟩
  rw [toList_union, plainChars, hdrops, collapseBlanks_barred, stripBlanks_barred, hafter, hbefore,
    ha, hb, List.map_map]
  rfl

/-! ## Entities -/

/-- An alternative leads to an entity, without the marks of arrays in it. -/
def refers (cs : List Char) : Bool := leadsToEntity (dropArrayMarks cs)

/-- Some alternative of a type leads to an entity. -/
def anyRefers (cs : List Char) : Bool := (splitOn '|' (dropArrayMarks cs)).any leadsToEntity

/-- If no mark is made by what is put behind a text, all that it has are dropped before. -/
theorem dropArrayMarks_append (hclose : ds.head? ≠ some ']') (cs : List Char) :
    dropArrayMarks (cs ++ ds) = dropArrayMarks cs ++ dropArrayMarks ds := by
  fun_induction dropArrayMarks cs with
  | case1 rest ih => exact ih
  | case2 d rest hne ih =>
    have hne' : ∀ tail, d = '[' → rest ++ ds = ']' :: tail → False := by
      rintro tail hd htail
      cases rest with
      | nil =>
        rw [List.nil_append] at htail
        exact hclose (by rw [htail]; rfl)
      | cons e rest =>
        obtain ⟨rfl, -⟩ := List.cons.inj htail
        exact hne rest hd rfl
    rw [List.cons_append, dropArrayMarks.eq_2 d _ hne', ih, List.cons_append]
  | case3 => rfl

/-- A text in which no mark begins is kept in front of another one. -/
theorem dropArrayMarks_append_left (h : '[' ∉ cs) (ds : List Char) :
    dropArrayMarks (cs ++ ds) = cs ++ dropArrayMarks ds := by
  induction cs with
  | nil => rfl
  | cons c cs ih =>
    obtain ⟨hc, hcs⟩ : '[' ≠ c ∧ '[' ∉ cs := by simpa using h
    have hne : ∀ tail, c = '[' → cs ++ ds = ']' :: tail → False := fun _ h _ => hc h.symm
    rw [List.cons_append, dropArrayMarks.eq_2 c _ hne, ih hcs, List.cons_append]

/-- Dropping the marks of arrays adds no character. -/
theorem dropArrayMarks_subset (cs : List Char) : dropArrayMarks cs ⊆ cs := by
  fun_induction dropArrayMarks cs with
  | case1 rest ih => exact fun c hc => List.mem_cons_of_mem _ (List.mem_cons_of_mem _ (ih hc))
  | case2 d rest hne ih => exact List.cons_subset_cons d ih
  | case3 => exact List.Subset.refl []

/-- White space around an alternative makes no difference. -/
theorem refers_append_blanks (hbefore : ∀ c ∈ before, isBlank c = true)
    (hafter : ∀ c ∈ after, isBlank c = true) (cs : List Char) :
    refers (before ++ cs ++ after) = refers cs := by
  have hopen {ds : List Char} (h : ∀ c ∈ ds, isBlank c = true) : '[' ∉ ds :=
    fun hmem => absurd (h _ hmem) (by decide)
  have hclose : after.head? ≠ some ']' :=
    fun h => absurd (hafter _ (List.mem_of_head? h)) (by decide)
  have hkept : dropArrayMarks after = after := by
    simpa [dropArrayMarks] using dropArrayMarks_append_left (hopen hafter) []
  rw [refers, dropArrayMarks_append hclose, dropArrayMarks_append_left (hopen hbefore), hkept,
    leadsToEntity, stripBlanks_append_blanks hbefore hafter]
  rfl

/-- Nor does stripping an alternative. -/
theorem refers_stripBlanks (cs : List Char) : refers (stripBlanks cs) = refers cs := by
  obtain ⟨before, after, hcs, hbefore, hafter, -⟩ := exists_stripBlanks cs
  conv_rhs => rw [hcs]
  exact (refers_append_blanks hbefore hafter _).symm

/-- A type without bars is its only alternative. -/
theorem anyRefers_of_notMem (h : '|' ∉ cs) : anyRefers cs = refers cs := by
  rw [anyRefers, splitOn_of_notMem fun hmem => h (dropArrayMarks_subset cs hmem), List.any_cons,
    List.any_nil, Bool.or_false, refers]

/-- The alternatives stand on the two sides of a bar. -/
theorem anyRefers_append_bar (cs ds : List Char) :
    anyRefers (cs ++ '|' :: ds) = (anyRefers cs || anyRefers ds) := by
  have hbar : dropArrayMarks ('|' :: ds) = '|' :: dropArrayMarks ds :=
    @dropArrayMarks_append_left ['|'] (by decide) ds
  have hhead : ('|' :: ds).head? ≠ some ']' := by simp
  rw [anyRefers, dropArrayMarks_append hhead, hbar, splitOn_append_sep, List.any_append]
  rfl

/-- The alternatives of a union lead to entities one by one. -/
theorem anyRefers_barred {first last : List Char} {middle : List (List Char)}
    (hfirst : '|' ∉ first) (hmiddle : ∀ m ∈ middle, '|' ∉ m) (hlast : '|' ∉ last) :
    anyRefers (barred first middle last) = (refers first || middle.any refers || refers last) := by
  induction middle generalizing first with
  | nil =>
    have hbarred : barred first [] last = first ++ '|' :: last := rfl
    rw [hbarred, anyRefers_append_bar, anyRefers_of_notMem hfirst, anyRefers_of_notMem hlast,
      List.any_nil, Bool.or_false]
  | cons m middle ih =>
    obtain ⟨hm, hmiddle⟩ := List.forall_mem_cons.1 hmiddle
    rw [barred_cons, anyRefers_append_bar, anyRefers_of_notMem hfirst, ih hm hmiddle, List.any_cons]
    simp only [Bool.or_assoc]

/-- Stripping makes no difference. -/
theorem anyRefers_stripBlanks_barred {first last : List Char} {middle : List (List Char)}
    (hfirst : '|' ∉ first) (hmiddle : ∀ m ∈ middle, '|' ∉ m) (hlast : '|' ∉ last) :
    anyRefers (stripBlanks (barred first middle last)) =
      (refers first || middle.any refers || refers last) := by
  obtain ⟨after, hfront, hafter⟩ := exists_dropWhile_isBlank first
  obtain ⟨before, hend, hbefore⟩ := exists_dropEndWhile_isBlank last
  have hrefers := refers_append_blanks (List.forall_mem_nil _) hafter (stripBlanks first)
  have hrefers' := refers_append_blanks hbefore (List.forall_mem_nil _) (stripBlanks last)
  rw [List.nil_append, ← hfront, refers_stripBlanks] at hrefers
  rw [List.append_nil, ← hend, refers_stripBlanks] at hrefers'
  have hkept : dropEndWhile isBlank last <+: last := dropEndWhile_prefix isBlank last
  have hbar : '|' ∉ dropEndWhile isBlank last := fun h => hlast (hkept.subset h)
  rw [stripBlanks_barred, anyRefers_barred (fun h => hfirst ((List.dropWhile_suffix _).subset h))
    hmiddle hbar, hrefers, hrefers']

/-- So the piece of an alternative leads to an entity if its plain form does. -/
theorem Alternative.refers_piece (m : Alternative) : refers m.piece = refers m.plain := by
  rw [← m.stripBlanks_piece, refers_stripBlanks]

/-- Between the ends of a union, with white space next to them, and the pieces of the other
alternatives it makes no difference either whether the white space at its own ends is there. -/
theorem anyRefers_pieces {first last : List Char} (hfirst : '|' ∉ first) (hlast : '|' ∉ last)
    (hafter : ∀ c ∈ after, isBlank c = true) (hbefore : ∀ c ∈ before, isBlank c = true)
    (middle : List Alternative) :
    let pieces := barred (first ++ after) (middle.map Alternative.piece) (before ++ last)
    let told := refers first || middle.any (fun m => refers m.plain) || refers last
    anyRefers pieces = told ∧ anyRefers (stripBlanks pieces) = told := by
  intro pieces told
  have hblank {ds : List Char} (h : ∀ c ∈ ds, isBlank c = true) : '|' ∉ ds :=
    fun hmem => absurd (h _ hmem) (by decide)
  have hfirst' : '|' ∉ first ++ after := List.not_mem_append hfirst (hblank hafter)
  have hlast' : '|' ∉ before ++ last := List.not_mem_append (hblank hbefore) hlast
  have hmiddle : ∀ m ∈ middle.map Alternative.piece, '|' ∉ m := by
    intro m hm
    obtain ⟨m, -, rfl⟩ := List.mem_map.1 hm
    exact m.bar_notMem.2
  -- White space around a piece makes no difference to what it refers to.
  have htold : (refers (first ++ after) || (middle.map Alternative.piece).any refers ||
      refers (before ++ last)) = told := by
    have hfirst : refers (first ++ after) = refers first :=
      refers_append_blanks (List.forall_mem_nil _) hafter first
    have hlast : refers (before ++ last) = refers last := by
      have h := refers_append_blanks hbefore (List.forall_mem_nil _) last
      rwa [List.append_nil] at h
    simp only [hfirst, hlast, List.any_map, Function.comp_def, Alternative.refers_piece, told]
  rw [← htold]
  exact ⟨anyRefers_barred hfirst' hmiddle hlast',
    anyRefers_stripBlanks_barred hfirst' hmiddle hlast'⟩

/-- A mark at the end makes no difference. -/
theorem anyRefers_append_mark (cs : List Char) : anyRefers (cs ++ "[]".toList) = anyRefers cs := by
  have hmark : dropArrayMarks "[]".toList = [] := by decide
  rw [anyRefers, dropArrayMarks_append (by decide), hmark, List.append_nil, anyRefers]

end CodeSurvey.DataModel
