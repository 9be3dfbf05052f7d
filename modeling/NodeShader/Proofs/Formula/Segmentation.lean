import NodeShader.Proofs.Formula.Lexing

/-!
How a text is cut into lexemes. Each lexeme is the longest one that the rest of the text starts with.
Nothing but blanks gets lost, and blanks between two lexemes do not matter.
-/

namespace NodeShader

namespace Symbol

theorem eq_of_ofChar? {c : Char} {mark : Symbol} (known : ofChar? c = some mark) : c = mark.char := by
  unfold ofChar? at known
  split at known <;> cases known <;> rfl

end Symbol

namespace Lexeme

/-- Whether a character may stand in a formula. -/
def inAlphabet (c : Char) : Bool :=
  isBlank c || c.isAlphanum || c == '_' || "+-*/%(),.".toList.contains c

/-- The characters of a text that are not blank. -/
def visible (text : List Char) : List Char := text.filter fun c => !isBlank c

/-- Whether the characters of a lexeme spell what it is. -/
def IsSpelled : Lexeme → Prop
  | .number digits => IsNumber digits
  | .word letters => ∃ c others, letters = c :: others ∧ startsWord c = true ∧
      ∀ other ∈ c :: others, Code.isWordChar other = true
  | .symbol _ => True

/-- A lexeme before the rest of a text that could not be any longer. -/
structure Leads (lexeme : Lexeme) (rest : List Char) : Prop where
  spelled : lexeme.IsSpelled
  longest : ∀ other : Lexeme, other.IsSpelled → other.source <+: lexeme.source ++ rest →
    other.source.length ≤ lexeme.source.length

variable {c : Char} {text rest more digits : List Char} {lexeme : Lexeme}

/-! ### Characters -/

theorem inAlphabet_of_isWordChar (word : Code.isWordChar c = true) : inAlphabet c = true := by
  have given : (c.isAlphanum || c == '_') = true := word
  simp only [inAlphabet, Bool.or_assoc] at given ⊢
  rw [← Bool.or_assoc c.isAlphanum, given]
  simp

theorem inAlphabet_of_isBlank (blank : isBlank c = true) : inAlphabet c = true := by
  simp [inAlphabet, blank]

theorem inAlphabet_symbol (mark : Symbol) : inAlphabet mark.char = true := by
  cases mark <;> decide

theorem isBlank_symbol (mark : Symbol) : isBlank mark.char = false := by cases mark <;> decide

theorem isBlank_of_isWordChar (word : Code.isWordChar c = true) : isBlank c = false := by
  have given : (c.isAlpha || c.isDigit || c == '_') = true := word
  rw [Bool.or_right_comm, Bool.or_eq_true] at given
  rcases given with starts | digit
  · exact isBlank_of_startsWord starts
  · exact isBlank_of_isDigit digit

/-- What the characters of the alphabet are for. -/
theorem inAlphabet_cases (known : inAlphabet c = true) :
    isBlank c = true ∨ c.isDigit = true ∨ startsWord c = true ∨ ∃ mark : Symbol, c = mark.char := by
  simp only [inAlphabet, Bool.or_eq_true, Char.isAlphanum] at known
  rcases known with ((blank | letter | digit) | score) | symbol
  · exact .inl blank
  · exact .inr (.inr (.inl (by simp [startsWord, letter])))
  · exact .inr (.inl digit)
  · exact .inr (.inr (.inl (by simp [startsWord, score])))
  · refine .inr (.inr (.inr ?_))
    have member : c ∈ ['+', '-', '*', '/', '%', '(', ')', ',', '.'] := by simpa using symbol
    simp only [List.mem_cons, List.not_mem_nil, or_false] at member
    rcases member with rfl | rfl | rfl | rfl | rfl | rfl | rfl | rfl | rfl
    exacts [⟨.plus, rfl⟩, ⟨.minus, rfl⟩, ⟨.star, rfl⟩, ⟨.slash, rfl⟩, ⟨.percent, rfl⟩,
      ⟨.opening, rfl⟩, ⟨.closing, rfl⟩, ⟨.comma, rfl⟩, ⟨.dot, rfl⟩]

theorem IsPower.characters {power : List Char} (raised : IsPower power) :
    ∀ c ∈ power, Code.isWordChar c = true ∨ ∃ mark : Symbol, c = mark.char := by
  cases raised with
  | absent => simp
  | @present letter _ _ letter_e signed _ all_digits =>
    have is_letter : Code.isWordChar letter = true := by rcases letter_e with rfl | rfl <;> decide
    intro c member
    rcases List.mem_cons.1 member with rfl | member
    · exact .inl is_letter
    · rcases List.mem_append.1 member with member | member
      · rcases signed with rfl | rfl | rfl
        · cases member
        · exact .inr ⟨.plus, List.mem_singleton.1 member⟩
        · exact .inr ⟨.minus, List.mem_singleton.1 member⟩
      · exact .inl (isWordChar_of_isDigit (all_digits c member))

theorem IsNumber.characters (is_number : IsNumber digits) :
    ∀ c ∈ digits, Code.isWordChar c = true ∨ ∃ mark : Symbol, c = mark.char := by
  intro c member
  cases is_number with
  | whole _ all_digits raised =>
    rcases List.mem_append.1 member with member | member
    · exact .inl (isWordChar_of_isDigit (all_digits c member))
    · exact raised.characters c member
  | point _ all_digits all_places raised =>
    rcases List.mem_append.1 member with member | member
    · exact .inl (isWordChar_of_isDigit (all_digits c member))
    · rcases List.mem_cons.1 member with rfl | member
      · exact .inr ⟨.dot, rfl⟩
      · rcases List.mem_append.1 member with member | member
        · exact .inl (isWordChar_of_isDigit (all_places c member))
        · exact raised.characters c member

namespace IsSpelled

theorem characters (spelled : lexeme.IsSpelled) :
    ∀ c ∈ lexeme.source, Code.isWordChar c = true ∨ ∃ mark : Symbol, c = mark.char := by
  cases lexeme with
  | number digits => exact IsNumber.characters spelled
  | word letters =>
    obtain ⟨first, others, rfl, -, words⟩ := spelled
    exact fun c member => .inl (words c member)
  | symbol mark => exact fun c member => .inr ⟨mark, List.mem_singleton.1 member⟩

theorem inAlphabet (spelled : lexeme.IsSpelled) : ∀ c ∈ lexeme.source, inAlphabet c = true := by
  intro c member
  rcases spelled.characters c member with word | ⟨mark, rfl⟩
  · exact inAlphabet_of_isWordChar word
  · exact inAlphabet_symbol mark

theorem not_blank (spelled : lexeme.IsSpelled) : ∀ c ∈ lexeme.source, isBlank c = false := by
  intro c member
  rcases spelled.characters c member with word | ⟨mark, rfl⟩
  · exact isBlank_of_isWordChar word
  · exact isBlank_symbol mark

theorem visible (spelled : lexeme.IsSpelled) : visible lexeme.source = lexeme.source :=
  List.filter_eq_self.2 fun c member => by simp [spelled.not_blank c member]

theorem exists_cons (spelled : lexeme.IsSpelled) : ∃ c others, lexeme.source = c :: others := by
  cases lexeme with
  | number digits =>
    refine List.exists_cons_of_ne_nil fun empty => ?_
    have starts := IsNumber.starts spelled []
    rw [show digits = [] from empty] at starts
    cases starts
  | word letters =>
    obtain ⟨first, others, rfl, -⟩ := spelled
    exact ⟨first, others, rfl⟩
  | symbol mark => exact ⟨mark.char, [], rfl⟩

end IsSpelled

/-! ### The longest lexeme -/

namespace Leads

/-- A lexeme is still the longest one when the text ends earlier. -/
theorem shorten (leads : lexeme.Leads (rest ++ more)) : lexeme.Leads rest where
  spelled := leads.spelled
  longest other spelled starts := by
    refine leads.longest other spelled ?_
    rw [← List.append_assoc]
    exact starts.trans (List.prefix_append _ _)

/-- No lexeme goes on across a blank. -/
theorem before_blank (leads : lexeme.Leads rest) (blank : isBlank c = true) (more : List Char) :
    lexeme.Leads (rest ++ c :: more) where
  spelled := leads.spelled
  longest other spelled starts := by
    rw [← List.append_assoc] at starts
    have whole : lexeme.source ++ rest <+: lexeme.source ++ rest ++ c :: more := List.prefix_append _ _
    -- A longer lexeme would end before the blank, or would have it among its characters.
    rcases List.prefix_or_prefix_of_prefix starts whole with within | beyond
    · exact leads.longest other spelled within
    · obtain ⟨excess, same⟩ := beyond
      rw [← same] at starts
      cases excess with
      | nil =>
        rw [List.append_nil] at same
        exact leads.longest other spelled (same ▸ List.prefix_rfl)
      | cons first others =>
        rw [List.prefix_append_right_inj, List.cons_prefix_cons] at starts
        have visible := spelled.not_blank first (by simp [← same])
        rw [starts.1, blank] at visible
        cases visible

/-- A number that leads is what is split off. -/
theorem splitNumber_eq (leads : (number digits).Leads rest) :
    splitNumber (digits ++ rest) = (digits, rest) := by
  have starts := IsNumber.starts leads.spelled rest
  have whole := splitNumber_append (digits ++ rest)
  have most := leads.longest (.number (splitNumber (digits ++ rest)).1) (isNumber_splitNumber starts)
    ⟨_, whole⟩
  have least := splitNumber_longest leads.spelled rest
  obtain ⟨same, after⟩ := List.append_inj whole (Nat.le_antisymm most least)
  exact Prod.ext same after

/-- A word that leads ends with its last word character. -/
theorem word_ends {letters : List Char} (leads : (word letters).Leads rest) :
    ∀ c ∈ rest.head?, Code.isWordChar c = false := by
  intro c first
  rw [Bool.eq_false_iff]
  intro word
  obtain ⟨after, rfl⟩ := List.head?_eq_some_iff.1 first
  obtain ⟨start, others, rfl, starts, words⟩ := leads.spelled
  have longer : (Lexeme.word (start :: others ++ [c])).IsSpelled := by
    refine ⟨start, others ++ [c], rfl, starts, fun other member => ?_⟩
    rcases List.mem_append.1 (List.cons_append ▸ member) with member | member
    · exact words other member
    · rw [List.mem_singleton.1 member, word]
  have most := leads.longest _ longer ⟨after, by simp [source]⟩
  simp [source] at most

/-- A dot that leads is not the point of a number. -/
theorem dot_ends (leads : (symbol .dot).Leads rest) : ∀ c ∈ rest.head?, c.isDigit = false := by
  intro c first
  rw [Bool.eq_false_iff]
  intro digit
  obtain ⟨after, rfl⟩ := List.head?_eq_some_iff.1 first
  have longer : (Lexeme.number ['.', c]).IsSpelled :=
    @IsNumber.point [] [c] [] (.inr (List.cons_ne_nil c [])) (by simp) (by simp [digit]) .absent
  have most : 2 ≤ 1 := leads.longest _ longer ⟨after, rfl⟩
  exact absurd most (by decide)

/-- Lexing goes on behind the lexeme that leads. -/
theorem all_eq (leads : lexeme.Leads rest) :
    all (lexeme.source ++ rest) = (all rest).map (lexeme :: ·) := by
  cases lexeme with
  | number digits =>
    have starts := IsNumber.starts leads.spelled rest
    have split := leads.splitNumber_eq
    obtain ⟨c, others, same⟩ := leads.spelled.exists_cons
    have visible := leads.spelled.not_blank c (by simp [same])
    change digits = c :: others at same
    subst same
    rw [source, List.cons_append] at *
    rw [all_number visible starts, split]
  | word letters =>
    have ends := leads.word_ends
    obtain ⟨c, others, rfl, starts, words⟩ := leads.spelled
    obtain ⟨taken, dropped⟩ := span_stop words ends
    rw [List.cons_append] at taken dropped
    rw [source, List.cons_append, all_word starts, taken, dropped]
  | symbol mark =>
    refine all_symbol mark fun dot => ?_
    subst dot
    exact leads.dot_ends

end Leads

theorem length_source_pos (spelled : lexeme.IsSpelled) : 0 < lexeme.source.length := by
  obtain ⟨c, others, same⟩ := spelled.exists_cons
  rw [same]
  exact Nat.succ_pos _

theorem startsWord_of_isPrefix {letters : List Char} (spelled : (word letters).IsSpelled)
    (starts : letters <+: c :: rest) : startsWord c = true := by
  obtain ⟨first, others, rfl, starts_word, -⟩ := spelled
  rw [← (List.cons_prefix_cons.1 starts).1]
  exact starts_word

theorem startsNumber_of_isPrefix (is_number : IsNumber digits) (starts : digits <+: text) :
    startsNumber text = true := by
  obtain ⟨after, rfl⟩ := starts
  exact is_number.starts after

theorem startsNumber_of_startsWord (starts : startsWord c = true) (rest : List Char) :
    startsNumber (c :: rest) = false := by
  have other : c ≠ '.' := by
    intro same
    subst same
    cases starts
  rw [startsNumber_of_ne_dot other, not_isDigit_of_startsWord starts]

theorem leads_number (starts : startsNumber (c :: rest) = true) :
    (number (splitNumber (c :: rest)).1).Leads (splitNumber (c :: rest)).2 where
  spelled := isNumber_splitNumber starts
  longest other spelled start := by
    rw [source, splitNumber_append] at start
    cases other with
    | number digits =>
      obtain ⟨after, same⟩ := start
      have longest := splitNumber_longest spelled after
      rw [show digits ++ after = c :: rest from same] at longest
      exact longest
    | word letters =>
      rw [startsNumber_of_startsWord (startsWord_of_isPrefix spelled start)] at starts
      cases starts
    | symbol mark => exact length_source_pos (isNumber_splitNumber starts)

theorem leads_word (starts : startsWord c = true) :
    (word ((c :: rest).takeWhile Code.isWordChar)).Leads ((c :: rest).dropWhile Code.isWordChar) := by
  have spelled : (word ((c :: rest).takeWhile Code.isWordChar)).IsSpelled := by
    refine ⟨c, rest.takeWhile Code.isWordChar, ?_, starts, ?_⟩
    · rw [List.takeWhile_cons, if_pos (startsWord_isWordChar starts)]
    · rw [← List.takeWhile_cons_of_pos (startsWord_isWordChar starts)]
      exact List.all_eq_true.1 List.all_takeWhile
  refine ⟨spelled, fun other spelled' start => ?_⟩
  rw [source, List.takeWhile_append_dropWhile] at start
  cases other with
  | number digits =>
    have number := startsNumber_of_isPrefix spelled' start
    rw [startsNumber_of_startsWord starts] at number
    cases number
  | word letters =>
    obtain ⟨after, same⟩ := start
    obtain ⟨first, others, rfl, -, words⟩ := spelled'
    rw [← show first :: others ++ after = c :: rest from same, source, source,
      List.takeWhile_append_of_pos words, List.length_append]
    exact Nat.le_add_right _ _
  | symbol mark => exact length_source_pos spelled

theorem leads_symbol {mark : Symbol} (no_number : startsNumber (mark.char :: rest) = false) :
    (symbol mark).Leads rest where
  spelled := trivial
  longest other spelled start := by
    cases other with
    | number digits =>
      have starts : startsNumber (mark.char :: rest) = true := startsNumber_of_isPrefix spelled start
      rw [no_number] at starts
      cases starts
    | word letters =>
      have word := startsWord_of_isPrefix spelled start
      cases mark <;> cases word
    | symbol mark => exact Nat.le_refl 1

/-- A lexeme leads wherever a text starts with a character of the alphabet that is not blank. -/
theorem exists_leads (known : inAlphabet c = true) (visible : isBlank c = false) (rest : List Char) :
    ∃ (lexeme : Lexeme) (after : List Char), c :: rest = lexeme.source ++ after ∧
      lexeme.Leads after := by
  cases number : startsNumber (c :: rest) with
  | true => exact ⟨_, _, (splitNumber_append _).symm, leads_number number⟩
  | false =>
    rcases inAlphabet_cases known with blank | digit | word | ⟨mark, rfl⟩
    · rw [visible] at blank
      cases blank
    · rw [startsNumber_digit digit] at number
      cases number
    · exact ⟨_, _, List.takeWhile_append_dropWhile.symm, leads_word word⟩
    · exact ⟨.symbol mark, rest, rfl, leads_symbol number⟩

/-- A character outside the alphabet is reported where it stands. -/
theorem all_foreign (foreign : inAlphabet c = false) (rest : List Char) :
    all (c :: rest) = .error (.foreign c) := by
  have not_of {p : Prop} (known : p → inAlphabet c = true) : ¬ p := by
    intro given
    rw [known given] at foreign
    cases foreign
  have number : ¬ startsNumber (c :: rest) = true := by
    have other : c ≠ '.' := by
      intro same
      subst same
      exact absurd foreign (by decide)
    rw [startsNumber_of_ne_dot other]
    exact not_of fun digit => inAlphabet_of_isWordChar (isWordChar_of_isDigit digit)
  have word : ¬ startsWord c = true :=
    not_of fun starts => inAlphabet_of_isWordChar (startsWord_isWordChar starts)
  have symbol : Symbol.ofChar? c = none := by
    rw [Option.eq_none_iff_forall_ne_some]
    exact fun mark => not_of fun same => Symbol.eq_of_ofChar? same ▸ inAlphabet_symbol mark
  rw [all, if_neg (not_of inAlphabet_of_isBlank), dif_neg number, dif_neg word, symbol]

/-- A text is empty, or starts with a blank, with a lexeme that leads, or with a character outside the
alphabet. -/
theorem text_induction {motive : List Char → Prop} (nil : motive [])
    (blank : ∀ c rest, isBlank c = true → motive rest → motive (c :: rest))
    (lexeme : ∀ (lexeme : Lexeme) (rest : List Char), lexeme.Leads rest → motive rest →
      motive (lexeme.source ++ rest))
    (foreign : ∀ c rest, inAlphabet c = false → motive (c :: rest)) :
    ∀ text, motive text
  | [] => nil
  | c :: rest => by
    by_cases is_blank : isBlank c = true
    · exact blank c rest is_blank (text_induction nil blank lexeme foreign rest)
    · cases known : inAlphabet c with
      | false => exact foreign c rest known
      | true =>
        obtain ⟨first, after, same, leads⟩ := exists_leads known (Bool.eq_false_iff.2 is_blank) rest
        have shorter : after.length < (c :: rest).length := by
          have := length_source_pos leads.spelled
          rw [same, List.length_append]
          omega
        rw [same]
        exact lexeme first after leads (text_induction nil blank lexeme foreign after)
termination_by text => text.length
decreasing_by
  · exact Nat.lt_succ_self _
  · exact shorter

/-! ### Success and failure -/

/-- Lexing fails at the first character outside the alphabet, and nowhere else. -/
theorem all_error_iff {fault : Fault} : all text = .error fault ↔
    ∃ c, text.find? (fun c => !inAlphabet c) = some c ∧ fault = .foreign c := by
  -- A number that leads can be read, so that no other fault is left.
  induction text using text_induction with
  | nil => simp [all]
  | blank c rest blank ih =>
    rw [all_blank blank, ih, List.find?_cons_of_neg (by simp [inAlphabet_of_isBlank blank])]
  | lexeme lexeme rest leads ih =>
    have skipped : lexeme.source.find? (fun c => !inAlphabet c) = none := by
      simpa using leads.spelled.inAlphabet
    rw [leads.all_eq, List.find?_append, skipped, Option.none_or, ← ih]
    cases all rest <;> simp [Except.map]
  | foreign c rest foreign =>
    rw [all_foreign foreign, List.find?_cons_of_pos (by simp [foreign])]
    simp [eq_comm]

theorem exists_all_iff : (∃ lexemes, all text = .ok lexemes) ↔ ∀ c ∈ text, inAlphabet c = true := by
  cases lexed : all text with
  | ok lexemes =>
    have nothing : text.find? (fun c => !inAlphabet c) = none := by
      rw [Option.eq_none_iff_forall_ne_some]
      intro c found
      have failed := all_error_iff.2 ⟨c, found, rfl⟩
      rw [lexed] at failed
      cases failed
    simpa using nothing
  | error fault =>
    obtain ⟨c, found, -⟩ := all_error_iff.1 lexed
    have foreign := List.find?_some found
    refine iff_of_false nofun fun known => ?_
    simp [known c (List.mem_of_find?_eq_some found)] at foreign

theorem Leads.exists_others {lexemes : List Lexeme} (leads : lexeme.Leads rest)
    (lexed : all (lexeme.source ++ rest) = .ok lexemes) :
    ∃ others, all rest = .ok others ∧ lexemes = lexeme :: others := by
  rw [leads.all_eq] at lexed
  cases behind : all rest with
  | error fault =>
    rw [behind] at lexed
    cases lexed
  | ok others =>
    rw [behind] at lexed
    cases lexed
    exact ⟨others, rfl, rfl⟩

theorem visible_blank (blank : isBlank c = true) (rest : List Char) :
    visible (c :: rest) = visible rest :=
  List.filter_cons_of_neg (by simp [blank])

theorem visible_append (text rest : List Char) :
    visible (text ++ rest) = visible text ++ visible rest :=
  List.filter_append text rest

/-- Every lexeme is spelled as such, and together they have all characters but the blanks. -/
theorem all_source {lexemes : List Lexeme} (lexed : all text = .ok lexemes) :
    (∀ lexeme ∈ lexemes, lexeme.IsSpelled) ∧ lexemes.flatMap source = visible text := by
  induction text using text_induction generalizing lexemes with
  | nil =>
    rw [all] at lexed
    cases lexed
    exact ⟨by simp, rfl⟩
  | blank c rest blank ih =>
    rw [all_blank blank] at lexed
    rw [visible_blank blank]
    exact ih lexed
  | lexeme lexeme rest leads ih =>
    obtain ⟨others, behind, rfl⟩ := leads.exists_others lexed
    obtain ⟨spelled, sources⟩ := ih behind
    refine ⟨List.forall_mem_cons.2 ⟨leads.spelled, spelled⟩, ?_⟩
    rw [List.flatMap_cons, sources, visible_append, leads.spelled.visible]
  | foreign c rest foreign =>
    rw [all_foreign foreign] at lexed
    cases lexed

/-! ### Blanks -/

theorem all_blanks_append {blanks : List Char} (all_blanks : ∀ c ∈ blanks, isBlank c = true)
    (rest : List Char) : all (blanks ++ rest) = all rest := by
  induction blanks with
  | nil => rfl
  | cons c blanks ih =>
    rw [List.cons_append, all_blank (all_blanks c List.mem_cons_self)]
    exact ih fun d member => all_blanks d (List.mem_cons_of_mem _ member)

/-- What stands before a blank and what stands behind it are lexed on their own. -/
theorem all_append_blank (blank : isBlank c = true) (text rest : List Char) :
    all (text ++ c :: rest) = (all text).bind fun first => (all rest).map (first ++ ·) := by
  induction text using text_induction with
  | nil =>
    rw [List.nil_append, all_blank blank, all]
    cases all rest <;> rfl
  | blank d text blank' ih => rw [List.cons_append, all_blank blank', all_blank blank', ih]
  | lexeme lexeme text leads ih =>
    rw [List.append_assoc, (leads.before_blank blank rest).all_eq, leads.all_eq, ih]
    cases all text with
    | error fault => rfl
    | ok first => cases all rest <;> rfl
  | foreign d text foreign =>
    rw [List.cons_append, all_foreign foreign, all_foreign foreign]
    rfl

/-- The same for a run of blanks. -/
theorem all_append_blanks {blanks : List Char} (some_blanks : blanks ≠ [])
    (all_blanks : ∀ c ∈ blanks, isBlank c = true) (text rest : List Char) :
    all (text ++ blanks ++ rest) = (all text).bind fun first => (all rest).map (first ++ ·) := by
  obtain ⟨c, others, rfl⟩ := List.exists_cons_of_ne_nil some_blanks
  rw [List.append_assoc, List.cons_append, all_append_blank (all_blanks c List.mem_cons_self)]
  rw [all_blanks_append fun d member => all_blanks d (List.mem_cons_of_mem _ member)]

theorem eq_nil_of_sources {lexemes : List Lexeme} (spelled : ∀ lexeme ∈ lexemes, lexeme.IsSpelled)
    (empty : lexemes.flatMap source = []) : lexemes = [] := by
  cases lexemes with
  | nil => rfl
  | cons lexeme others =>
    have positive := length_source_pos (spelled lexeme List.mem_cons_self)
    rw [List.flatMap_cons, List.append_eq_nil_iff] at empty
    simp [empty.1] at positive

/-- Where the lexemes of a text fall into two parts, so does the text. -/
theorem all_of_append {before after : List Char} {first second : List Lexeme}
    (lexed : all (before ++ after) = .ok (first ++ second))
    (between : visible before = first.flatMap source) :
    all before = .ok first ∧ all after = .ok second := by
  have spelled : ∀ lexeme ∈ first, lexeme.IsSpelled := fun lexeme member =>
    (all_source lexed).1 lexeme (List.mem_append_left _ member)
  generalize whole : before ++ after = text at lexed
  induction text using text_induction generalizing before first with
  | nil =>
    obtain ⟨rfl, rfl⟩ := List.append_eq_nil_iff.1 whole
    rw [all] at lexed
    obtain ⟨rfl, rfl⟩ := List.append_eq_nil_iff.1 (Except.ok.inj lexed).symm
    exact ⟨by rw [all], by rw [all]⟩
  | blank c rest blank ih =>
    rw [all_blank blank] at lexed
    cases before with
    | nil =>
      cases eq_nil_of_sources spelled between.symm
      rw [List.nil_append] at whole
      rw [whole, all_blank blank]
      exact ⟨by rw [all], lexed⟩
    | cons d before =>
      obtain ⟨rfl, behind⟩ := List.cons.inj (List.cons_append.symm.trans whole)
      rw [visible_blank blank] at between
      rw [all_blank blank]
      exact ih between spelled behind lexed
  | lexeme lexeme rest leads ih =>
    obtain ⟨others, behind, same⟩ := leads.exists_others lexed
    cases first with
    | nil =>
      have blanks : ∀ c ∈ before, isBlank c = true := by simpa [visible] using between
      have skipped := all_blanks_append blanks after
      have alone := all_blanks_append blanks []
      rw [List.append_nil, all] at alone
      rw [whole, lexed, List.nil_append] at skipped
      exact ⟨alone, skipped.symm⟩
    | cons other first =>
      obtain ⟨rfl, rfl⟩ := List.cons.inj same
      -- All of the lexeme is visible in `before`, so the cut cannot go through it.
      have long : other.source.length ≤ before.length := by
        have kept := List.length_filter_le (fun c => !isBlank c) before
        have sources := congrArg List.length between
        rw [List.flatMap_cons, List.length_append] at sources
        unfold visible at sources
        omega
      obtain ⟨before, rfl⟩ : other.source <+: before :=
        List.prefix_of_prefix_length_le ⟨rest, whole.symm⟩ (List.prefix_append before after) long
      rw [List.append_assoc, List.append_cancel_left_eq] at whole
      rw [visible_append, leads.spelled.visible, List.flatMap_cons, List.append_cancel_left_eq] at between
      obtain ⟨lexed_before, lexed_after⟩ :=
        ih between (fun l member => spelled l (List.mem_cons_of_mem _ member)) whole behind
      have leads : other.Leads (before ++ after) := whole ▸ leads
      rw [leads.shorten.all_eq, lexed_before]
      exact ⟨rfl, lexed_after⟩
  | foreign c rest foreign =>
    rw [all_foreign foreign] at lexed
    cases lexed

/-- Lexing succeeds on the texts over the alphabet, and what it reports is the leftmost character
outside of it. The lexemes have all characters of a text but its blanks, in order; numbers are
numerals that can be read. Blanks may be put between two lexemes, and blanks may be exchanged
for others. -/
theorem all_segments (text : List Char) :
    ((∃ lexemes, all text = .ok lexemes) ↔ ∀ c ∈ text, inAlphabet c = true) ∧
    (∀ fault, all text = .error fault ↔
      ∃ c, text.find? (fun c => !inAlphabet c) = some c ∧ fault = .foreign c) ∧
    ∀ lexemes, all text = .ok lexemes →
      lexemes.flatMap source = visible text ∧
      (∀ digits, .number digits ∈ lexemes →
        IsNumber digits ∧ ∃ value : F32, Floating.read? digits = some value) ∧
      (∀ before after first second, text = before ++ after → lexemes = first ++ second →
        visible before = first.flatMap source → ∀ blanks, (∀ c ∈ blanks, isBlank c = true) →
        all (before ++ blanks ++ after) = .ok lexemes) ∧
      (∀ before blanks after, text = before ++ blanks ++ after → blanks ≠ [] →
        (∀ c ∈ blanks, isBlank c = true) → ∀ blanks', blanks' ≠ [] →
        (∀ c ∈ blanks', isBlank c = true) → all (before ++ blanks' ++ after) = .ok lexemes) := by
  refine ⟨exists_all_iff, fun fault => all_error_iff, fun lexemes lexed => ?_⟩
  obtain ⟨spelled, sources⟩ := all_source lexed
  refine ⟨sources, fun digits member => ?_, ?_, ?_⟩
  · have is_number : IsNumber digits := spelled _ member
    exact ⟨is_number, is_number.read?⟩
  · rintro before after first second rfl rfl between blanks all_blanks
    obtain ⟨lexed_before, lexed_after⟩ := all_of_append lexed between
    cases blanks with
    | nil => rwa [List.append_nil]
    | cons c others =>
      rw [all_append_blanks (List.cons_ne_nil c others) all_blanks, lexed_before, lexed_after]
      rfl
  · rintro before blanks after rfl some_blanks all_blanks blanks' some_blanks' all_blanks'
    rw [all_append_blanks some_blanks' all_blanks', ← all_append_blanks some_blanks all_blanks, lexed]

/-- Two numbers with a point each, and a letter and a sign that are no exponent: blanks may be put
between the numbers. -/
theorem tight_segments :
    all "1.e2.5e+".toList = .ok [.number "1.e2".toList, .number ".5".toList, .word ['e'],
      .symbol .plus] ∧
    all ("1.e2".toList ++ "\u2003\t".toList ++ ".5e+".toList) = .ok [.number "1.e2".toList,
      .number ".5".toList, .word ['e'], .symbol .plus] := by
  have lexed : all "1.e2.5e+".toList = .ok [.number "1.e2".toList, .number ".5".toList, .word ['e'],
      .symbol .plus] := by
    decide +kernel
  obtain ⟨-, -, given⟩ := all_segments "1.e2.5e+".toList
  obtain ⟨-, -, between, -⟩ := given _ lexed
  refine ⟨lexed, between "1.e2".toList ".5e+".toList [.number "1.e2".toList] _ ?_ rfl ?_ _ ?_⟩
  · decide +kernel
  · decide +kernel
  · exact List.all_eq_true.1 (by decide +kernel)

-- A blank inside a lexeme does matter.
example : all "1 e5".toList = .ok [.number ['1'], .word ['e', '5']] ∧
    all "1e5".toList = .ok [.number ['1', 'e', '5']] := by
  decide +kernel

end Lexeme

end NodeShader
