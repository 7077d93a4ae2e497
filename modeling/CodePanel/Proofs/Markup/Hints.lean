import CodePanel.Proofs.Markup.Flat

namespace CodePanel.Markup

open CodePanel.Source

-- Leaves out every place where a pattern stands, from left to right. `skip` characters of the last
-- place are still to come.
def leaveOut (pattern : List Char) : Nat → List Char → List Char
  | _, [] => []
  | skip + 1, _ :: rest => leaveOut pattern skip rest
  | 0, c :: rest =>
    if pattern.isPrefixOf (c :: rest) then leaveOut pattern (pattern.length - 1) rest
    else c :: leaveOut pattern 0 rest

def without (pattern text : List Char) : List Char :=
  leaveOut pattern 0 text

theorem leaveOut_eq_without (pattern : List Char) (skip : Nat) (text : List Char) :
    leaveOut pattern skip text = without pattern (text.drop skip) := by
  induction skip generalizing text with
  | zero => rfl
  | succ skip ih =>
    cases text with
    | nil => rfl
    | cons c rest => exact ih rest

theorem without_pattern (c : Char) (more rest : List Char) :
    without (c :: more) (c :: more ++ rest) = without (c :: more) rest := by
  have hprefix : (c :: more).isPrefixOf (c :: more ++ rest) = true :=
    List.isPrefixOf_iff_prefix.mpr (List.prefix_append _ _)
  rw [without, List.cons_append, leaveOut, ← List.cons_append, if_pos hprefix, leaveOut_eq_without]
  simp

theorem without_append_of_not_mem (name : List Char) {front : List Char} (h : '<' ∉ front)
    (rest : List Char) :
    without ('<' :: name) (front ++ rest) = front ++ without ('<' :: name) rest := by
  induction front with
  | nil => rfl
  | cons c front ih =>
    obtain ⟨hc, hfront⟩ := not_or.mp (fun hmem => h (List.mem_cons.mpr hmem))
    have hprefix : ¬('<' :: name).isPrefixOf (c :: (front ++ rest)) = true := by
      simp [List.isPrefixOf, hc]
    rw [List.cons_append, without, leaveOut, if_neg hprefix]
    exact congrArg (c :: ·) (ih hfront)

theorem without_tag {name tag : List Char} (h : '<' ∉ tag) {rest : List Char}
    (hname : name.isPrefixOf (tag ++ rest) = false) :
    without ('<' :: name) ('<' :: tag ++ rest) = '<' :: tag ++ without ('<' :: name) rest := by
  have hprefix : ¬('<' :: name).isPrefixOf ('<' :: (tag ++ rest)) = true := by
    simp [List.isPrefixOf, hname]
  rw [List.cons_append, without, leaveOut, if_neg hprefix]
  exact congrArg ('<' :: ·) (without_append_of_not_mem name h rest)

theorem count_space_unifyBreaks (source : List Char) :
    (unifyBreaks source).count ' ' = source.count ' ' := by
  fun_induction unifyBreaks source with
  | case1 => rfl
  | case2 rest ih => simp [ih]
  | case3 c rest _ ih => simp [List.count_cons, ih]

theorem countP_unifyBreaks (hint : Bool) (source : List Char) :
    (unifyBreaks source).countP (fun c => hint ∧ c = ' ') =
      if hint then source.count ' ' else 0 := by
  cases hint with
  | false => simp
  | true =>
    rw [if_pos rfl, ← count_space_unifyBreaks, List.count_eq_countP]
    refine List.countP_congr fun c _ => ?_
    simp

-- Unifying line breaks keeps every space and what stands around it.
theorem exists_of_unifyBreaks_eq {source front back : List Char}
    (h : unifyBreaks source = front ++ ' ' :: back) :
    ∃ before after, source = before ++ ' ' :: after ∧ unifyBreaks before = front ∧
      unifyBreaks after = back := by
  fun_induction unifyBreaks source generalizing front with
  | case1 => simp at h
  | case2 rest ih =>
    cases front with
    | nil => cases (List.cons.inj h).1
    | cons d front =>
      obtain ⟨rfl, hrest⟩ := List.cons.inj h
      obtain ⟨before, after, rfl, rfl, hafter⟩ := ih hrest
      exact ⟨'\r' :: '\n' :: before, after, rfl, by rw [unifyBreaks], hafter⟩
  | case3 c rest hpair ih =>
    cases front with
    | nil =>
      obtain ⟨rfl, hrest⟩ := List.cons.inj h
      exact ⟨[], rest, rfl, rfl, hrest⟩
    | cons d front =>
      obtain ⟨rfl, hrest⟩ := List.cons.inj h
      obtain ⟨before, after, rfl, rfl, hafter⟩ := ih hrest
      refine ⟨c :: before, after, rfl, ?_, hafter⟩
      rw [unifyBreaks]
      rintro more rfl rfl
      exact hpair _ rfl rfl

theorem ne_open_of_mem_spanTag {options : Options} (h : options.IsSafe) {kind : Kind}
    {styleClass : String} (hclass : kind.styleClass = some styleClass) :
    ∀ c ∈ spanTag options.stem styleClass, c ≠ '<' := by
  have hmark : ∀ c ∈ "span class=\"".toList, c ≠ '<' := by simp
  have hquote : ∀ c ∈ "\"".toList, c ≠ '<' := by simp
  have hname : ∀ c, Overlay.isClassChar c = true → c ≠ '<' := by
    rintro c hc rfl
    exact absurd hc (by decide)
  intro c hc
  unfold spanTag at hc
  simp only [List.mem_append] at hc
  rcases hc with (hc | hc | hc) | hc
  · exact hmark c hc
  · exact hname c (h.isClassChar c hc)
  · exact hname c (styleClass_isClassChar hclass c hc)
  · exact hquote c hc

def hintTag : List Char := '<' :: "wbr>".toList

-- Where no bracket opens there is no hint.
theorem exists_of_append_eq {front rest before after : List Char} (h : '<' ∉ front)
    (heq : front ++ rest = before ++ (hintTag ++ after)) :
    ∃ more, before = front ++ more ∧ rest = more ++ (hintTag ++ after) := by
  rcases List.append_eq_append_iff.mp heq with ⟨more, hbefore, hrest⟩ | ⟨more, hfront, hrest⟩
  · exact ⟨more, hbefore, hrest⟩
  · cases more with
    | nil => exact ⟨[], by simpa using hfront.symm, by simpa using hrest.symm⟩
    | cons c more =>
      have hc : '<' = c := (List.cons.inj hrest).1
      have hmem : c ∈ front := by simp [hfront]
      rw [← hc] at hmem
      exact absurd hmem h

-- The first text is the second with a number of hints put in, each behind a space, whatever
-- follows it.
structure Hinted (count : Nat) (hinted plain : List Char) : Prop where
  without_append : ∀ rest, without hintTag (hinted ++ rest) = plain ++ without hintTag rest
  occurrences_append : ∀ rest,
    occurrences hintTag (hinted ++ rest) = count + occurrences hintTag rest
  places : ∀ {rest before after}, hinted ++ rest = before ++ (hintTag ++ after) →
    before.getLast? = some ' ' ∨
      ∃ more, before = hinted ++ more ∧ rest = more ++ (hintTag ++ after)

namespace Hinted

variable {count count' : Nat} {hinted hinted' plain plain' : List Char}

theorem append (h : Hinted count hinted plain) (h' : Hinted count' hinted' plain') :
    Hinted (count + count') (hinted ++ hinted') (plain ++ plain') where
  without_append rest := by
    rw [List.append_assoc, h.without_append, h'.without_append, List.append_assoc]
  occurrences_append rest := by
    rw [List.append_assoc, h.occurrences_append, h'.occurrences_append, Nat.add_assoc]
  places {rest before after} heq := by
    rw [List.append_assoc] at heq
    rcases h.places heq with hlast | ⟨more, rfl, hmore⟩
    · exact .inl hlast
    · rcases h'.places hmore with hlast | ⟨last, rfl, hrest⟩
      · exact .inl (by rw [List.getLast?_append, hlast, Option.some_or])
      · exact .inr ⟨last, by rw [List.append_assoc], hrest⟩

theorem of_not_mem {text : List Char} (h : '<' ∉ text) : Hinted 0 text text where
  without_append := without_append_of_not_mem _ h
  occurrences_append rest := by
    rw [hintTag, occurrences_append_of_not_mem _ h, Nat.zero_add]
  places heq := .inr (exists_of_append_eq h heq)

-- A tag of another name.
theorem of_tag {tag : List Char} (h : '<' ∉ tag)
    (hname : ∀ rest, "wbr>".toList.isPrefixOf (tag ++ rest) = false) :
    Hinted 0 ('<' :: tag) ('<' :: tag) where
  without_append rest := without_tag h (hname rest)
  occurrences_append rest := by
    rw [hintTag, occurrences_tag _ h, hname rest]
    rfl
  places {rest before after} heq := by
    cases before with
    | nil =>
      have htag : tag ++ rest = "wbr>".toList ++ after := (List.cons.inj heq).2
      have hprefix : "wbr>".toList.isPrefixOf (tag ++ rest) = true :=
        List.isPrefixOf_iff_prefix.mpr ⟨after, htag.symm⟩
      rw [hname rest] at hprefix
      cases hprefix
    | cons c before =>
      obtain ⟨rfl, htag⟩ := List.cons.inj heq
      obtain ⟨more, rfl, hrest⟩ := exists_of_append_eq h htag
      exact .inr ⟨more, rfl, hrest⟩

theorem space : Hinted 1 (' ' :: hintTag) [' '] where
  without_append rest := by
    have htag : without hintTag (hintTag ++ rest) = without hintTag rest := without_pattern _ _ _
    have hspace : '<' ∉ [' '] := by simp
    rw [← htag]
    exact without_append_of_not_mem _ hspace (hintTag ++ rest)
  occurrences_append rest := by
    have hspace : ' ' :: hintTag ++ rest = [' '] ++ ('<' :: "wbr>".toList ++ rest) := rfl
    have hprefix : "wbr>".toList.isPrefixOf ("wbr>".toList ++ rest) = true :=
      List.isPrefixOf_iff_prefix.mpr (List.prefix_append _ _)
    rw [hspace, hintTag, occurrences_append_of_not_mem _ (by simp), occurrences_tag _ (by simp),
      hprefix]
    rfl
  places {rest before after} heq := by
    match before with
    | [] => cases (List.cons.inj heq).1
    | [c] =>
      have hc : ' ' = c := (List.cons.inj heq).1
      exact .inl (by rw [← hc]; rfl)
    | c :: d :: before =>
      obtain ⟨rfl, htag⟩ := List.cons.inj heq
      obtain ⟨rfl, hname⟩ := List.cons.inj htag
      have hopen : '<' ∉ "wbr>".toList := by decide
      obtain ⟨more, rfl, hrest⟩ := exists_of_append_eq hopen hname
      exact .inr ⟨more, rfl, hrest⟩

variable {hint : Bool} {stem : Option String}

theorem textChar (hint : Bool) (c : Char) :
    Hinted (if hint ∧ c = ' ' then 1 else 0) (textChar hint c) (textChar false c) := by
  by_cases hspace : hint ∧ c = ' '
  · obtain ⟨rfl, rfl⟩ := hspace
    exact space
  · have hescape : Markup.textChar hint c = escapeChar c := if_neg hspace
    have hplain : Markup.textChar false c = escapeChar c := if_neg (by simp)
    rw [if_neg hspace, hescape, hplain]
    exact of_not_mem (isEscaped_escapeChar c).no_open

theorem writeText (text : List Char) :
    Hinted (text.countP fun c => hint ∧ c = ' ') (writeText ⟨hint, stem⟩ text)
      (writeText ⟨false, stem⟩ text) := by
  induction text with
  | nil =>
    rw [writeText_nil, writeText_nil]
    exact of_not_mem (by simp)
  | cons c text ih =>
    rw [List.countP_cons, Nat.add_comm, writeText_cons, writeText_cons]
    simp only [decide_eq_true_eq]
    exact (textChar hint c).append ih

theorem openSpan (h : (⟨hint, stem⟩ : Options).IsSafe) {kind : Kind} {styleClass : String}
    (hclass : kind.styleClass = some styleClass) :
    Hinted 0 (openSpan ⟨hint, stem⟩ styleClass) (openSpan ⟨false, stem⟩ styleClass) := by
  have hsame : Markup.openSpan ⟨false, stem⟩ styleClass = Markup.openSpan ⟨hint, stem⟩ styleClass :=
    rfl
  have hopen : '<' ∉ spanTag (⟨hint, stem⟩ : Options).stem styleClass ++ ['>'] := by
    intro hmem
    rcases List.mem_append.mp hmem with hmem | hmem
    · exact ne_open_of_mem_spanTag h hclass _ hmem rfl
    · cases List.mem_singleton.mp hmem
  rw [hsame, openSpan_eq]
  exact of_tag hopen fun rest => rfl

theorem writeLexeme (h : (⟨hint, stem⟩ : Options).IsSafe) (lexeme : Lexeme) :
    Hinted ((marked lexeme).text.countP fun c => hint ∧ c = ' ')
      (writeLexeme ⟨hint, stem⟩ lexeme) (writeLexeme ⟨false, stem⟩ lexeme) := by
  have htext := @writeText hint stem lexeme.text
  rw [writeLexeme_eq, writeLexeme_eq]
  cases hclass : lexeme.kind.styleClass with
  | some styleClass =>
    have hclose : Hinted 0 ('<' :: "/span>".toList) ('<' :: "/span>".toList) :=
      of_tag (by simp) fun rest => rfl
    have hspan := ((openSpan h hclass).append htext).append hclose
    rw [Nat.zero_add, Nat.add_zero] at hspan
    rw [marked_of_styleClass hclass]
    exact hspan
  | none =>
    by_cases hkind : lexeme.kind = .lineBreak
    · have hbreak : Hinted 0 ('<' :: "br>".toList) ('<' :: "br>".toList) :=
        of_tag (by simp) fun rest => rfl
      have hnone : lineBreakMark.text.countP (fun c => hint ∧ c = ' ') = 0 := by
        simp [lineBreakMark]
      simp only [marked, hkind, if_true, hnone]
      exact hbreak
    · simp only [marked, hkind, if_false]
      exact htext

theorem writeLexemes (h : (⟨hint, stem⟩ : Options).IsSafe) (list : List Lexeme) :
    Hinted ((textOf (list.map marked)).countP fun c => hint ∧ c = ' ')
      (writeLexemes ⟨hint, stem⟩ list) (writeLexemes ⟨false, stem⟩ list) := by
  induction list with
  | nil => exact of_not_mem (by simp [Markup.writeLexemes])
  | cons lexeme list ih =>
    have hcount : (textOf ((lexeme :: list).map marked)).countP (fun c => hint ∧ c = ' ') =
        (marked lexeme).text.countP (fun c => hint ∧ c = ' ') +
          (textOf (list.map marked)).countP fun c => hint ∧ c = ' ' :=
      List.countP_append
    rw [hcount]
    exact (writeLexeme h lexeme).append ih

theorem render (h : (⟨hint, stem⟩ : Options).IsSafe) (source : List Char) :
    Hinted (if hint then source.count ' ' else 0) (render ⟨hint, stem⟩ source)
      (render ⟨false, stem⟩ source) := by
  have hlist := writeLexemes h (lexemes source)
  rw [lexemes, textOf_marked_joinText, textOf_marked_pieces, countP_unifyBreaks] at hlist
  rwa [render_eq, render_eq]

-- For the whole text there is nothing that follows.
theorem without_eq (h : Hinted count hinted plain) : without hintTag hinted = plain := by
  have hnil : without hintTag [] = [] := rfl
  have hwithout := h.without_append []
  rwa [hnil, List.append_nil, List.append_nil] at hwithout

theorem occurrences_eq (h : Hinted count hinted plain) : occurrences hintTag hinted = count := by
  have hcount := h.occurrences_append []
  rwa [List.append_nil] at hcount

theorem getLast_eq (h : Hinted count hinted plain) {before after : List Char}
    (heq : hinted = before ++ (hintTag ++ after)) : before.getLast? = some ' ' := by
  rw [← List.append_nil hinted] at heq
  rcases h.places heq with hlast | ⟨more, -, hnil⟩
  · exact hlast
  · simp [hintTag] at hnil

end Hinted

section Reading

-- A tag that is read holds all that has been seen of it.
theorem exists_tag_mem {seen text : List Char} {list : List Symbol}
    (h : symbols? (.tag seen) text = some list) : ∃ name, .tag (seen ++ name) ∈ list := by
  induction text generalizing seen with
  | nil => cases h
  | cons c text ih =>
    rw [symbols?] at h
    split at h
    · obtain ⟨more, -, rfl⟩ := Option.map_eq_some_iff.mp h
      exact ⟨[], by simp⟩
    · obtain ⟨name, hname⟩ := ih h
      rw [List.append_assoc] at hname
      exact ⟨_, hname⟩

-- An entity that is read has one of the three names.
theorem exists_entityChar {seen text : List Char} {list : List Symbol}
    (h : symbols? (.entity seen) text = some list) :
    ∃ name c, entityChar? (seen ++ name) = some c := by
  induction text generalizing seen with
  | nil => cases h
  | cons c text ih =>
    rw [symbols?] at h
    split at h
    · obtain ⟨d, hd, -⟩ := Option.bind_eq_some_iff.mp h
      exact ⟨[], d, by simpa using hd⟩
    · obtain ⟨name, d, hd⟩ := ih h
      rw [List.append_assoc] at hd
      exact ⟨_, d, hd⟩

theorem open_not_mem_of_entityChar {name : List Char} {c : Char}
    (h : entityChar? name = some c) : '<' ∉ name := by
  unfold entityChar? at h
  split at h
  · next hname => simp [hname]
  · split at h
    · next hname => simp [hname]
    · split at h
      · next hname => simp [hname]
      · cases h

-- Markup can be taken apart in front of a text that no tag and no entity can go on with.
theorem symbols_append {mode : Mode} {before rest : List Char} {list : List Symbol}
    (h : symbols? mode (before ++ rest) = some list)
    (htag : ∀ seen, ∀ more ∈ symbols? (.tag seen) rest, ¬∀ name, .tag name ∈ more → '<' ∉ name)
    (hentity : ∀ seen, symbols? (.entity seen) rest = none)
    (hnames : ∀ name, .tag name ∈ list → '<' ∉ name) :
    ∃ front back, symbols? mode before = some front ∧ symbols? .text rest = some back ∧
      list = front ++ back := by
  induction before generalizing mode list with
  | nil =>
    cases mode with
    | text => exact ⟨[], list, rfl, h, rfl⟩
    | tag seen => exact absurd hnames (htag seen list h)
    | entity seen =>
      rw [List.nil_append, hentity seen] at h
      cases h
  | cons c before ih =>
    -- a symbol that is read first stands in front of all others
    have hput : ∀ symbol : Symbol,
        (symbols? .text (before ++ rest)).map (symbol :: ·) = some list →
        ∃ front back, (symbols? .text before).map (symbol :: ·) = some front ∧
          symbols? .text rest = some back ∧ list = front ++ back := by
      intro symbol hmap
      obtain ⟨more, hmore, rfl⟩ := Option.map_eq_some_iff.mp hmap
      obtain ⟨front, back, hfront, hback, rfl⟩ :=
        ih hmore fun name hname => hnames name (List.mem_cons_of_mem _ hname)
      exact ⟨symbol :: front, back, by rw [hfront, Option.map_some], hback, rfl⟩
    rw [List.cons_append] at h
    cases mode with
    | text =>
      rw [symbols?] at h ⊢
      by_cases hopen : c = '<'
      · rw [if_pos hopen] at h ⊢
        exact ih h hnames
      rw [if_neg hopen] at h ⊢
      by_cases hentity : c = '&'
      · rw [if_pos hentity] at h ⊢
        exact ih h hnames
      rw [if_neg hentity] at h ⊢
      by_cases hclose : c = '>'
      · rw [if_pos hclose] at h
        cases h
      rw [if_neg hclose] at h ⊢
      exact hput _ h
    | tag seen =>
      rw [symbols?] at h ⊢
      by_cases hclose : c = '>'
      · rw [if_pos hclose] at h ⊢
        exact hput _ h
      rw [if_neg hclose] at h ⊢
      exact ih h hnames
    | entity seen =>
      rw [symbols?] at h ⊢
      by_cases hend : c = ';'
      · rw [if_pos hend] at h ⊢
        obtain ⟨d, hd, hmap⟩ := Option.bind_eq_some_iff.mp h
        rw [hd, Option.bind_some]
        exact hput _ hmap
      rw [if_neg hend] at h ⊢
      exact ih h hnames

-- Where no tag holds an opening bracket, every such bracket starts a tag.
theorem symbols_append_open {before rest : List Char} {list : List Symbol}
    (h : symbols? .text (before ++ '<' :: rest) = some list)
    (hnames : ∀ name, .tag name ∈ list → '<' ∉ name) :
    ∃ front back, symbols? .text before = some front ∧
      symbols? .text ('<' :: rest) = some back ∧ list = front ++ back := by
  refine symbols_append h (fun seen more hmore hall => ?_) (fun seen => ?_) hnames
  · rw [symbols?, if_neg (by decide)] at hmore
    obtain ⟨name, hname⟩ := exists_tag_mem hmore
    exact hall _ hname (by simp)
  · rw [symbols?, if_neg (by decide), Option.eq_none_iff_forall_ne_some]
    intro more hmore
    obtain ⟨name, c, hc⟩ := exists_entityChar hmore
    exact open_not_mem_of_entityChar hc (by simp)

theorem symbols_append_space {before : List Char} {list : List Symbol}
    (h : symbols? .text (before ++ [' ']) = some list)
    (hnames : ∀ name, .tag name ∈ list → '<' ∉ name) :
    ∃ front, symbols? .text before = some front ∧ list = front ++ [.char ' '] := by
  obtain ⟨front, back, hfront, hback, rfl⟩ :=
    symbols_append h (fun seen more hmore => by simp [symbols?] at hmore)
      (fun seen => by simp [symbols?]) hnames
  have hspace : symbols? .text [' '] = some [.char ' '] := by simp [symbols?]
  rw [hspace] at hback
  cases hback
  exact ⟨front, hfront, rfl⟩

end Reading

theorem open_not_mem_of_tag_mem {options : Options} (h : options.IsSafe) {list : List Lexeme}
    {name : List Char} (hname : .tag name ∈ list.flatMap (lexemeSymbols options)) :
    '<' ∉ name := by
  have htext : ∀ text, .tag name ∈ textSymbols options.spaceBreakHint text → '<' ∉ name := by
    intro text hmem
    obtain ⟨c, -, hc⟩ := List.mem_flatMap.mp hmem
    unfold charSymbols at hc
    split at hc
    · have hwbr : name = "wbr".toList := by simpa using hc
      simp [hwbr]
    · simp at hc
  obtain ⟨lexeme, -, hmem⟩ := List.mem_flatMap.mp hname
  unfold lexemeSymbols at hmem
  cases hclass : lexeme.kind.styleClass with
  | some styleClass =>
    simp only [hclass, List.cons_append, List.mem_cons, List.mem_append, List.not_mem_nil, or_false]
      at hmem
    rcases hmem with hopen | hmem | hclose
    · cases hopen
      exact fun hmem => ne_open_of_mem_spanTag h hclass _ hmem rfl
    · exact htext _ hmem
    · cases hclose
      simp
  | none =>
    simp only [hclass] at hmem
    split at hmem
    · have hbr : name = "br".toList := by simpa using hmem
      simp [hbr]
    · exact htext _ hmem

-- A hint stands behind a space that is shown, and what is shown up to there is the source up to a
-- space.
theorem exists_space_of_hint {options : Options} (h : options.IsSafe)
    {source before after : List Char} (heq : render options source = before ++ (hintTag ++ after))
    (hlast : before.getLast? = some ' ') :
    ∃ front back, source = front ++ ' ' :: back ∧
      plainText? before = some (unifyBreaks front ++ [' ']) := by
  obtain ⟨shown, rfl⟩ := List.getLast?_eq_some_iff.mp hlast
  have hsymbols : symbols? .text (shown ++ [' '] ++ ('<' :: ("wbr>".toList ++ after))) =
      some ((lexemes source).flatMap (lexemeSymbols options)) := by
    rw [← symbols_writeLexemes h, ← render_eq]
    exact congrArg (symbols? .text) heq.symm
  have hnames : ∀ name, .tag name ∈ (lexemes source).flatMap (lexemeSymbols options) →
      '<' ∉ name := fun name => open_not_mem_of_tag_mem h
  obtain ⟨list, rest, hlist, hrest, hall⟩ := symbols_append_open hsymbols hnames
  obtain ⟨chars, hchars, rfl⟩ := symbols_append_space hlist fun name hname =>
    hnames name (hall ▸ List.mem_append_left _ hname)
  have hplain := plainText_render h source
  rw [plainText?, render_eq, symbols_writeLexemes h, hall, Option.map_some, Option.some.injEq,
    List.flatMap_append, List.flatMap_append, List.append_assoc] at hplain
  obtain ⟨front, back, rfl, hfront, -⟩ := exists_of_unifyBreaks_eq hplain.symm
  refine ⟨front, back, rfl, ?_⟩
  rw [plainText?, hlist, Option.map_some, List.flatMap_append, hfront]
  rfl

-- With the hint, the same markup is written with one `<wbr>` behind every space of the source.
-- Leaving these out gives the markup without the hint, which has none of them.
theorem hints_only_added (source : List Char) (stem : Option String)
    (hstem : stem = none ∨ ∃ settings : Overlay.Settings,
      settings.validate = .ok () ∧ settings.classStem = stem) :
    let hinted := render ⟨true, stem⟩ source
    let plain := render ⟨false, stem⟩ source
    without "<wbr>".toList hinted = plain ∧ occurrences "<wbr>".toList plain = 0 ∧
    (∀ before after, hinted = before ++ "<wbr>".toList ++ after →
      before.getLast? = some ' ' ∧ ∃ front back, source = front ++ ' ' :: back ∧
        plainText? before = some (unifyBreaks front ++ [' '])) ∧
    occurrences "<wbr>".toList hinted = source.count ' ' := by
  intro hinted plain
  have hsafe : ∀ hint, (⟨hint, stem⟩ : Options).IsSafe := by
    intro hint
    rcases hstem with rfl | ⟨settings, hvalid, hstem⟩
    · intro stem hmem
      cases hmem
    · exact isSafe_of_validate hvalid hstem
  have hadded : Hinted (source.count ' ') hinted plain := Hinted.render (hsafe true) source
  have hplain : Hinted 0 plain plain := Hinted.render (hsafe false) source
  have htag : "<wbr>".toList = hintTag := rfl
  rw [htag]
  refine ⟨hadded.without_eq, hplain.occurrences_eq, fun before after heq => ?_,
    hadded.occurrences_eq⟩
  rw [List.append_assoc] at heq
  have hlast := hadded.getLast_eq heq
  exact ⟨hlast, exists_space_of_hint (hsafe true) heq hlast⟩

-- A source that holds the hint itself, with spaces in a row, at the ends and in spans.
theorem hints_only_added_hostile_source :
    Overlay.Settings.validate { classStem := some "hl-" } = .ok () ∧
    without "<wbr>".toList (render ⟨true, some "hl-"⟩ " <wbr>  @a \r\n// x &lt; ".toList) =
      render ⟨false, some "hl-"⟩ " <wbr>  @a \r\n// x &lt; ".toList ∧
    occurrences "<wbr>".toList (render ⟨true, some "hl-"⟩ " <wbr>  @a \r\n// x &lt; ".toList) =
      7 := by
  have hvalid : Overlay.Settings.validate { classStem := some "hl-" } = .ok () := rfl
  obtain ⟨hwithout, -, -, hcount⟩ := hints_only_added " <wbr>  @a \r\n// x &lt; ".toList
    (some "hl-") (.inr ⟨_, hvalid, rfl⟩)
  exact ⟨hvalid, hwithout, hcount⟩

end CodePanel.Markup
