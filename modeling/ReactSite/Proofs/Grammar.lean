import ReactSite.Page.Content
import ReactSite.Proofs.Binding
/-!
# Grammar — how a page is read

What a reader of the content of an element goes by: running text, in which an entity or a brace group stands for one
character, and elements with their quoted attributes, each with an end tag of its own or closing itself.  Nothing is
read in two ways: the first character says what begins, and what begins says where it ends
(`Content.unique`).  Outside its tags such a text holds braces in groups only (`Content.bracesGrouped`).
-/
namespace ReactSite
namespace Xml

/-! ## Names -/

/-- The characters a name may begin with, as intervals of code points. -/
def nameStartRanges : List (Nat × Nat) :=
  [(0x3a, 0x3a), (0x41, 0x5a), (0x5f, 0x5f), (0x61, 0x7a), (0xc0, 0xd6), (0xd8, 0xf6), (0xf8, 0x2ff), (0x370, 0x37d),
   (0x37f, 0x1fff), (0x200c, 0x200d), (0x2070, 0x218f), (0x2c00, 0x2fef), (0x3001, 0xd7ff), (0xf900, 0xfdcf),
   (0xfdf0, 0xfffd), (0x10000, 0xeffff)]

/-- The further characters of names. -/
def nameRanges : List (Nat × Nat) := [(0x2d, 0x2e), (0x30, 0x39), (0xb7, 0xb7), (0x300, 0x36f), (0x203f, 0x2040)]

def isNameStart (c : Char) : Bool := Text.inRanges nameStartRanges c.toNat

def isNameChar (c : Char) : Bool := isNameStart c || Text.inRanges nameRanges c.toNat

/-- **A name of XML.** -/
def isName (s : String) : Bool :=
  (s.toList.head?.any isNameStart) && s.toList.all isNameChar

/-! ## Characters -/

/-- The entities that have a name. -/
def entities : List (String × Char) := [("amp", '&'), ("lt", '<'), ("gt", '>'), ("quot", '"'), ("apos", '\'')]

/-- **What stands between the ampersand and the semicolon of an entity**: a name, or the number of the character. -/
inductive Entity : List Char → Char → Prop where
  | named {n : String} {c : Char} (h : (n, c) ∈ entities) : Entity n.toList c
  | numbered (c : Char) : Entity ('#' :: Nat.toDigits 10 c.toNat) c

/-- **One character of running text.** -/
inductive TextLetter : List Char → Char → Prop where
  | plain {c : Char} (h : c ∉ ['<', '>', '&', '\x7b', '\x7d']) : TextLetter [c] c
  | entity {m : List Char} {c : Char} (h : Entity m c) : TextLetter ('&' :: (m ++ [';'])) c
  | group {c : Char} (h : Jsx.isBrace c) : TextLetter (Jsx.braceGroup c) c

/-- **One character of a quoted value.** -/
inductive ValueLetter : List Char → Char → Prop where
  | plain {c : Char} (h : c ∉ ['<', '>', '&', '"']) : ValueLetter [c] c
  | entity {m : List Char} {c : Char} (h : Entity m c) : ValueLetter ('&' :: (m ++ [';'])) c

/-- **A text as the letters it is spelled with.** -/
inductive Spelling (L : List Char → Char → Prop) : List Char → List Char → Prop where
  | nil : Spelling L [] []
  | cons {w s t : List Char} {c : Char} (hw : L w c) (h : Spelling L s t) : Spelling L (w ++ s) (c :: t)

/-! ## Markup -/

/-- **The attributes of a tag**, each after a space. -/
inductive AttributeList : List Char → Attributes → Prop where
  | nil : AttributeList [] []
  | cons {name : String} {w v s : List Char} {attrs : Attributes} (hname : isName name) (hw : Spelling ValueLetter w v)
      (h : AttributeList s attrs) :
      AttributeList (' ' :: (name.toList ++ '=' :: '"' :: (w ++ '"' :: s))) ((name, String.ofList v) :: attrs)

/-- **The content of an element**: its text, and its children with their tails. -/
inductive Content : List Char → String → List Element → Prop where
  | text {s t : List Char} (hs : Spelling TextLetter s t) : Content s (String.ofList t) []
  | element {s t a body rest : List Char} {tag text tail : String} {attrs : Attributes} {children es : List Element}
      (hs : Spelling TextLetter s t) (htag : isName tag) (ha : AttributeList a attrs) (hbody : Content body text children)
      (hrest : Content rest tail es) :
      Content (s ++ '<' :: (tag.toList ++ (a ++ '>' :: (body ++ '<' :: '/' :: (tag.toList ++ '>' :: rest)))))
        (String.ofList t) (.mk 0 tag attrs text children tail :: es)
  | selfClosing {s t a rest : List Char} {tag tail : String} {attrs : Attributes} {es : List Element}
      (hs : Spelling TextLetter s t) (htag : isName tag) (ha : AttributeList a attrs) (hrest : Content rest tail es) :
      Content (s ++ '<' :: (tag.toList ++ (a ++ '/' :: '>' :: rest)))
        (String.ofList t) (.mk 0 tag attrs "" [] tail :: es)

/-! ## One reading -/

theorem run_unique {p : Char → Bool} {r r' : List Char} : ∀ {a a' : List Char}, (∀ c ∈ a, p c = true) →
    (∀ c ∈ a', p c = true) → (∀ c ∈ r.head?, p c = false) → (∀ c ∈ r'.head?, p c = false) →
      a ++ r = a' ++ r' → a = a' ∧ r = r'
  | [], [], _, _, _, _, h             => ⟨rfl, h⟩
  | [], d :: _, _, ha', hr, _, h      => by
    rw [List.nil_append] at h
    have hd := hr d (by rw [h]; rfl)
    rw [ha' d List.mem_cons_self] at hd
    cases hd
  | d :: _, [], ha, _, _, hr', h      => by
    rw [List.nil_append] at h
    have hd := hr' d (by rw [← h]; rfl)
    rw [ha d List.mem_cons_self] at hd
    cases hd
  | d :: a, d' :: a', ha, ha', hr, hr', h => by
    rw [List.cons_append, List.cons_append, List.cons.injEq] at h
    obtain ⟨rfl, h⟩ := h
    obtain ⟨rfl, hrr⟩ := run_unique (fun c hc => ha c (List.mem_cons_of_mem _ hc))
      (fun c hc => ha' c (List.mem_cons_of_mem _ hc)) hr hr' h
    exact ⟨rfl, hrr⟩

/-! ### Entities -/

/-- The letters, digits and the number sign that an entity is written with. -/
def isEntityChar (c : Char) : Bool := c = '#' || Naming.isWordChar c

theorem Entity.all {m : List Char} {c : Char} (h : Entity m c) : ∀ d ∈ m, isEntityChar d = true := by
  cases h with
  | named hn =>
    have hall : (entities.all fun e => e.1.toList.all isEntityChar) = true := by decide
    exact List.all_eq_true.1 (List.all_eq_true.1 hall _ hn)
  | numbered c =>
    intro d hd
    rcases List.mem_cons.1 hd with rfl | hd
    · rfl
    · rw [isEntityChar, Naming.isWordChar, Nat.isDigit_of_mem_toDigits (by decide) (by decide) hd]
      simp

theorem toDigits_inj {m n : Nat} (h : Nat.toDigits 10 m = Nat.toDigits 10 n) : m = n := by
  have hd := congrArg (fun cs => Nat.ofDigitChars 10 cs 0) h
  simpa only [Nat.ofDigitChars_toDigits (show 1 < 10 by decide) (Nat.le_refl 10)] using hd

/-- **An entity stands for one character.** -/
theorem Entity.unique {m : List Char} {c c' : Char} (h : Entity m c) (h' : Entity m c') : c = c' := by
  have hnamed : ∀ e ∈ entities, ∀ e' ∈ entities, e.1.toList = e'.1.toList → e.2 = e'.2 := by decide
  have hnumber : ∀ e ∈ entities, e.1.toList.head? ≠ some '#' := by decide
  generalize hm : m = m' at h'
  cases h with
  | named hn =>
    cases h' with
    | named hn' => exact hnamed _ hn _ hn' hm
    | numbered c => exact absurd (by rw [hm]; rfl) (hnumber _ hn)
  | numbered c =>
    cases h' with
    | named hn' => exact absurd (by rw [← hm]; rfl) (hnumber _ hn')
    | numbered c' => exact Char.toNat_inj.1 (toDigits_inj (List.cons.inj hm).2)

theorem Entity.unique_append {m m' r r' : List Char} {c c' : Char} (h : Entity m c) (h' : Entity m' c')
    (e : '&' :: (m ++ [';']) ++ r = '&' :: (m' ++ [';']) ++ r') : c = c' ∧ r = r' := by
  simp only [List.cons_append, List.append_assoc, List.nil_append, List.cons.injEq, true_and] at e
  have hstop : ∀ r : List Char, ∀ c ∈ (';' :: r).head?, isEntityChar c = false := by
    rintro r c ⟨⟩
    decide
  obtain ⟨rfl, hr⟩ := run_unique h.all h'.all (hstop r) (hstop r') e
  exact ⟨h.unique h', (List.cons.inj hr).2⟩

/-! ### Spellings -/

/-- **Letters that can be told apart** by what they begin with, and from what comes after them. -/
structure IsAlphabet (L : List Char → Char → Prop) (stop : Char → Bool) : Prop where
  unique : ∀ {w w' r r' : List Char} {c c' : Char}, L w c → L w' c' → w ++ r = w' ++ r' → c = c' ∧ r = r'
  head : ∀ {w : List Char} {c : Char}, L w c → ∃ d w₀, w = d :: w₀ ∧ stop d = false

theorem isAlphabet_textLetter : IsAlphabet TextLetter (· = '<') where
  unique {w w' r r' c c'} h h' e := by
    cases h with
    | plain hc =>
      cases h' with
      | plain hc' => exact List.cons.inj e
      | entity h' => exact absurd (List.cons.inj e).1 (by rintro rfl; simp at hc)
      | group h' => exact absurd (List.cons.inj e).1 (by rintro rfl; simp at hc)
    | entity h =>
      cases h' with
      | plain hc' => exact absurd (List.cons.inj e).1 (by rintro rfl; simp at hc')
      | entity h' => exact h.unique_append h' e
      | group h' => exact absurd (List.cons.inj e).1 (by decide)
    | group h =>
      cases h' with
      | plain hc' => exact absurd (List.cons.inj e).1 (by rintro rfl; simp at hc')
      | entity h' => exact absurd (List.cons.inj e).1 (by decide)
      | group h' => simpa [Jsx.braceGroup] using e
  head {w c} h := by
    cases h with
    | plain hc => exact ⟨_, _, rfl, decide_eq_false (by rintro rfl; simp at hc)⟩
    | entity h => exact ⟨_, _, rfl, rfl⟩
    | group h => exact ⟨_, _, rfl, rfl⟩

theorem isAlphabet_valueLetter : IsAlphabet ValueLetter (· = '"') where
  unique {w w' r r' c c'} h h' e := by
    cases h with
    | plain hc =>
      cases h' with
      | plain hc' => exact List.cons.inj e
      | entity h' => exact absurd (List.cons.inj e).1 (by rintro rfl; simp at hc)
    | entity h =>
      cases h' with
      | plain hc' => exact absurd (List.cons.inj e).1 (by rintro rfl; simp at hc')
      | entity h' => exact h.unique_append h' e
  head {w c} h := by
    cases h with
    | plain hc => exact ⟨_, _, rfl, decide_eq_false (by rintro rfl; simp at hc)⟩
    | entity h => exact ⟨_, _, rfl, rfl⟩

/-- **A text is spelled by its letters only**, up to where it ends. -/
theorem Spelling.unique {L : List Char → Char → Prop} {stop : Char → Bool} (hL : IsAlphabet L stop)
    {s t r r' : List Char} (h : Spelling L s t) : ∀ {s' t' : List Char}, Spelling L s' t' →
      (∀ c ∈ r.head?, stop c = true) → (∀ c ∈ r'.head?, stop c = true) → s ++ r = s' ++ r' → t = t' ∧ r = r' := by
  -- a letter never begins where the text has ended
  have hends : ∀ {w s r q : List Char} {c : Char}, L w c → (∀ d ∈ r.head?, stop d = true) → r ≠ w ++ s ++ q := by
    intro w s r q c hw hr e
    obtain ⟨d, w₀, rfl, hd⟩ := hL.head hw
    rw [hr d (by rw [e]; rfl)] at hd
    cases hd
  induction h with
  | nil =>
    intro s' t' h' hr _ e
    cases h' with
    | nil => exact ⟨rfl, e⟩
    | cons hw h' => exact absurd e (hends hw hr)
  | cons hw h ih =>
    intro s' t' h' hr hr' e
    cases h' with
    | nil => exact absurd e.symm (hends hw hr')
    | cons hw' h' =>
      rw [List.append_assoc, List.append_assoc] at e
      obtain ⟨rfl, e⟩ := hL.unique hw hw' e
      obtain ⟨rfl, hrr⟩ := ih h' hr hr' e
      exact ⟨rfl, hrr⟩

/-! ### Tags -/

theorem isNameChar_of_isName {s : String} (h : isName s) : ∀ c ∈ s.toList, isNameChar c = true := by
  rw [isName, Bool.and_eq_true] at h
  exact List.all_eq_true.1 h.2

theorem exists_cons_of_isName {s : String} (h : isName s) : ∃ c l, s.toList = c :: l ∧ isNameStart c = true := by
  rw [isName, Bool.and_eq_true] at h
  cases hs : s.toList with
  | nil => rw [hs] at h; cases h.1
  | cons c l => rw [hs] at h; exact ⟨c, l, rfl, h.1⟩

theorem name_unique {n n' : String} {r r' : List Char} (hn : isName n) (hn' : isName n')
    (hr : ∀ c ∈ r.head?, isNameChar c = false) (hr' : ∀ c ∈ r'.head?, isNameChar c = false)
    (e : n.toList ++ r = n'.toList ++ r') : n = n' ∧ r = r' := by
  obtain ⟨hnn, hrr⟩ := run_unique (isNameChar_of_isName hn) (isNameChar_of_isName hn') hr hr' e
  exact ⟨String.toList_inj.1 hnn, hrr⟩

theorem AttributeList.unique {a r r' : List Char} {attrs : Attributes} (h : AttributeList a attrs) :
    ∀ {a' : List Char} {attrs' : Attributes}, AttributeList a' attrs' → (∀ c ∈ r.head?, c ≠ ' ') →
      (∀ c ∈ r'.head?, c ≠ ' ') → a ++ r = a' ++ r' → attrs = attrs' ∧ r = r' := by
  have hequals : ∀ s : List Char, ∀ c ∈ ('=' :: s).head?, isNameChar c = false := by rintro s c ⟨⟩; decide
  have hquote : ∀ s : List Char, ∀ c ∈ ('"' :: s).head?, decide (c = '"') = true := by rintro s c ⟨⟩; rfl
  induction h with
  | nil =>
    intro a' attrs' h' hr _ e
    cases h' with
    | nil => exact ⟨rfl, e⟩
    | cons =>
      have hhead : ' ' ∈ r.head? := by rw [show r = _ from e]; rfl
      exact absurd rfl (hr _ hhead)
  | cons hname hw h ih =>
    intro a' attrs' h' hr hr' e
    cases h' with
    | nil =>
      have hhead : ' ' ∈ r'.head? := by rw [show r' = _ from e.symm]; rfl
      exact absurd rfl (hr' _ hhead)
    | cons hname' hw' h' =>
      simp only [List.cons_append, List.append_assoc, List.cons.injEq, true_and] at e
      obtain ⟨rfl, e₁⟩ := name_unique hname hname' (hequals _) (hequals _) e
      simp only [List.cons.injEq, true_and] at e₁
      obtain ⟨rfl, e₂⟩ := hw.unique isAlphabet_valueLetter hw' (hquote _) (hquote _) e₁
      obtain ⟨rfl, hrr⟩ := ih h' hr hr' (List.cons.inj e₂).2
      exact ⟨rfl, hrr⟩

theorem AttributeList.head {a : List Char} {attrs : Attributes} (h : AttributeList a attrs) : ∀ c ∈ a.head?, c = ' ' := by
  cases h with
  | nil => rintro c ⟨⟩
  | cons => rintro c ⟨⟩; rfl

/-- What may come after the attributes in a tag. -/
def ClosesTag (r : List Char) : Prop := ∃ r₀, r = '>' :: r₀ ∨ r = '/' :: r₀

/-- **A start tag is read in one way.** -/
theorem startTag_unique {tag tag' : String} {a a' r r' : List Char} {attrs attrs' : Attributes} (htag : isName tag)
    (htag' : isName tag') (ha : AttributeList a attrs) (ha' : AttributeList a' attrs') (hr : ClosesTag r)
    (hr' : ClosesTag r') (e : tag.toList ++ (a ++ r) = tag'.toList ++ (a' ++ r')) :
    tag = tag' ∧ attrs = attrs' ∧ r = r' := by
  have hspace : ∀ {r : List Char}, ClosesTag r → ∀ c ∈ r.head?, c ≠ ' ' := by
    rintro r ⟨r₀, rfl | rfl⟩ c ⟨⟩ <;> decide
  have hname : ∀ {a r : List Char} {attrs : Attributes}, AttributeList a attrs → ClosesTag r →
      ∀ c ∈ (a ++ r).head?, isNameChar c = false := by
    intro a r attrs ha hr c hc
    cases a with
    | nil => obtain ⟨r₀, rfl | rfl⟩ := hr <;> cases hc <;> decide
    | cons d a =>
      cases hc
      rw [ha.head c rfl]
      decide
  obtain ⟨rfl, e₁⟩ := name_unique htag htag' (hname ha hr) (hname ha' hr') e
  obtain ⟨rfl, hrr⟩ := ha.unique ha' (hspace hr) (hspace hr') e₁
  exact ⟨rfl, rfl, hrr⟩

/-- Content ends with the text, or where an end tag begins. -/
def ClosesContent (r : List Char) : Prop := r = [] ∨ ∃ r₀, r = '<' :: '/' :: r₀

theorem ClosesContent.head {r : List Char} (h : ClosesContent r) : ∀ c ∈ r.head?, decide (c = '<') = true := by
  rcases h with rfl | ⟨r₀, rfl⟩
  · rintro c ⟨⟩
  · rintro c ⟨⟩; rfl

theorem ClosesContent.ne_startTag {r q : List Char} {tag : String} (h : ClosesContent r) (htag : isName tag) :
    r ≠ '<' :: (tag.toList ++ q) := by
  obtain ⟨c, l, hc, hstart⟩ := exists_cons_of_isName htag
  rw [hc]
  rcases h with rfl | ⟨r₀, rfl⟩ <;> intro e
  · cases e
  · cases e
    revert hstart
    decide

/-- **Content is read in one way**, up to where it ends. -/
theorem Content.unique {s : List Char} {text : String} {es : List Element} (h : Content s text es) :
    ∀ {s' r r' : List Char} {text' : String} {es' : List Element}, Content s' text' es' → ClosesContent r →
      ClosesContent r' → s ++ r = s' ++ r' → text = text' ∧ es = es' ∧ r = r' := by
  have hmarkup : ∀ q : List Char, ∀ c ∈ ('<' :: q).head?, decide (c = '<') = true := by rintro q c ⟨⟩; rfl
  have hend : ∀ q : List Char, ClosesTag ('>' :: q) := fun q => ⟨q, .inl rfl⟩
  have hself : ∀ q : List Char, ClosesTag ('/' :: q) := fun q => ⟨q, .inr rfl⟩
  have hstop : ∀ q : List Char, ∀ c ∈ ('>' :: q).head?, isNameChar c = false := by rintro q c ⟨⟩; decide
  induction h with
  | text hs =>
    intro s' r r' text' es' h' hr hr' e
    cases h' with
    | text hs' =>
      obtain ⟨rfl, hrr⟩ := hs.unique isAlphabet_textLetter hs' hr.head hr'.head e
      exact ⟨rfl, rfl, hrr⟩
    | element hs' htag' =>
      simp only [List.append_assoc, List.cons_append] at e
      obtain ⟨-, e⟩ := hs.unique isAlphabet_textLetter hs' hr.head (hmarkup _) e
      exact absurd e (hr.ne_startTag htag')
    | selfClosing hs' htag' =>
      simp only [List.append_assoc, List.cons_append] at e
      obtain ⟨-, e⟩ := hs.unique isAlphabet_textLetter hs' hr.head (hmarkup _) e
      exact absurd e (hr.ne_startTag htag')
  | element hs htag ha hbody hrest ihbody ihrest =>
    intro s' r r' text' es' h' hr hr' e
    cases h' with
    | text hs' =>
      simp only [List.append_assoc, List.cons_append] at e
      obtain ⟨-, e⟩ := hs.unique isAlphabet_textLetter hs' (hmarkup _) hr'.head e
      exact absurd e.symm (hr'.ne_startTag htag)
    | element hs' htag' ha' hbody' hrest' =>
      simp only [List.append_assoc, List.cons_append] at e
      obtain ⟨rfl, e₁⟩ := hs.unique isAlphabet_textLetter hs' (hmarkup _) (hmarkup _) e
      obtain ⟨rfl, rfl, e₂⟩ := startTag_unique htag htag' ha ha' (hend _) (hend _) (List.cons.inj e₁).2
      obtain ⟨rfl, rfl, e₃⟩ := ihbody hbody' (.inr ⟨_, rfl⟩) (.inr ⟨_, rfl⟩) (List.cons.inj e₂).2
      simp only [List.cons.injEq, true_and] at e₃
      obtain ⟨-, e₄⟩ := name_unique htag htag (hstop _) (hstop _) e₃
      obtain ⟨rfl, rfl, hrr⟩ := ihrest hrest' hr hr' (List.cons.inj e₄).2
      exact ⟨rfl, rfl, hrr⟩
    | selfClosing hs' htag' ha' =>
      simp only [List.append_assoc, List.cons_append] at e
      obtain ⟨rfl, e₁⟩ := hs.unique isAlphabet_textLetter hs' (hmarkup _) (hmarkup _) e
      obtain ⟨rfl, rfl, e₂⟩ := startTag_unique htag htag' ha ha' (hend _) (hself _) (List.cons.inj e₁).2
      cases e₂
  | selfClosing hs htag ha hrest ihrest =>
    intro s' r r' text' es' h' hr hr' e
    cases h' with
    | text hs' =>
      simp only [List.append_assoc, List.cons_append] at e
      obtain ⟨-, e⟩ := hs.unique isAlphabet_textLetter hs' (hmarkup _) hr'.head e
      exact absurd e.symm (hr'.ne_startTag htag)
    | element hs' htag' ha' =>
      simp only [List.append_assoc, List.cons_append] at e
      obtain ⟨rfl, e₁⟩ := hs.unique isAlphabet_textLetter hs' (hmarkup _) (hmarkup _) e
      obtain ⟨rfl, rfl, e₂⟩ := startTag_unique htag htag' ha ha' (hself _) (hend _) (List.cons.inj e₁).2
      cases e₂
    | selfClosing hs' htag' ha' hrest' =>
      simp only [List.append_assoc, List.cons_append] at e
      obtain ⟨rfl, e₁⟩ := hs.unique isAlphabet_textLetter hs' (hmarkup _) (hmarkup _) e
      obtain ⟨rfl, rfl, e₂⟩ := startTag_unique htag htag' ha ha' (hself _) (hself _) (List.cons.inj e₁).2
      simp only [List.cons.injEq, true_and] at e₂
      obtain ⟨rfl, rfl, hrr⟩ := ihrest hrest' hr hr' e₂
      exact ⟨rfl, rfl, hrr⟩

/-! ## Braces -/

/-- **A text whose braces stand in groups**, its tags aside. -/
inductive BracesGrouped : List Char → Prop where
  | nil : BracesGrouped []
  | other {c : Char} {s : List Char} (hbrace : Jsx.isBrace c = false) (htag : c ≠ '<') (h : BracesGrouped s) :
      BracesGrouped (c :: s)
  | group {c : Char} {s : List Char} (hbrace : Jsx.isBrace c) (h : BracesGrouped s) :
      BracesGrouped (Jsx.braceGroup c ++ s)
  | tag {inside s : List Char} (hinside : '>' ∉ inside) (h : BracesGrouped s) :
      BracesGrouped ('<' :: (inside ++ '>' :: s))

theorem BracesGrouped.append_of_forall {a r : List Char} (ha : ∀ c ∈ a, Jsx.isBrace c = false ∧ c ≠ '<')
    (h : BracesGrouped r) : BracesGrouped (a ++ r) := by
  induction a with
  | nil => exact h
  | cons c a ih =>
    obtain ⟨hbrace, htag⟩ := ha c List.mem_cons_self
    exact .other hbrace htag (ih fun d hd => ha d (List.mem_cons_of_mem _ hd))

theorem Entity.forall_mem {p : Char → Prop} {m : List Char} {c : Char} (h : Entity m c) (hand : p '&') (hsemi : p ';')
    (hp : ∀ d, isEntityChar d = true → p d) : ∀ d ∈ '&' :: (m ++ [';']), p d := by
  intro d hd
  rw [List.mem_cons, List.mem_append, List.mem_singleton] at hd
  rcases hd with rfl | hd | rfl
  · exact hand
  · exact hp d (h.all d hd)
  · exact hsemi

theorem Spelling.bracesGrouped {s t r : List Char} (h : Spelling TextLetter s t) (hr : BracesGrouped r) :
    BracesGrouped (s ++ r) := by
  induction h with
  | nil => exact hr
  | cons hw h ih =>
    rw [List.append_assoc]
    cases hw with
    | plain hc =>
      rename_i c
      refine .other ?_ (by rintro rfl; simp at hc) ih
      simp only [List.mem_cons, List.not_mem_nil, or_false, not_or] at hc
      simp [Jsx.isBrace, hc]
    | entity he =>
      refine BracesGrouped.append_of_forall (he.forall_mem (by decide) (by decide) fun d hd => ?_) ih
      have hne : ∀ e : Char, isEntityChar e = false → d ≠ e := by
        rintro e he rfl
        rw [hd] at he
        cases he
      exact ⟨by simp [Jsx.isBrace, hne '\x7b' (by decide), hne '\x7d' (by decide)], hne '<' (by decide)⟩
    | group hc => exact .group hc ih

theorem notMem_of_isName {s : String} (h : isName s) : '>' ∉ s.toList := by
  intro hmem
  have hc := isNameChar_of_isName h '>' hmem
  revert hc
  decide

theorem Spelling.notMem {w v : List Char} (h : Spelling ValueLetter w v) : '>' ∉ w := by
  induction h with
  | nil => exact List.not_mem_nil
  | cons hw h ih =>
    rw [List.mem_append, not_or]
    refine ⟨fun hmem => ?_, ih⟩
    cases hw with
    | plain hc =>
      obtain rfl := List.mem_singleton.1 hmem
      simp at hc
    | entity he =>
      refine he.forall_mem (p := fun d => d ≠ '>') (by decide) (by decide) (fun d hd => ?_) '>' hmem rfl
      rintro rfl
      revert hd
      decide

theorem AttributeList.notMem {a : List Char} {attrs : Attributes} (h : AttributeList a attrs) : '>' ∉ a := by
  induction h with
  | nil => exact List.not_mem_nil
  | cons hname hw h ih => simp [notMem_of_isName hname, hw.notMem, ih]

/-- **Outside the tags, a brace stands in a group only.** -/
theorem Content.bracesGrouped {s : List Char} {text : String} {es : List Element} (h : Content s text es) :
    ∀ {r : List Char}, BracesGrouped r → BracesGrouped (s ++ r) := by
  induction h with
  | text hs => exact hs.bracesGrouped
  | @element s t a body rest tag text tail attrs children es hs htag ha hbody hrest ihbody ihrest =>
    intro r hr
    have hopen : '>' ∉ tag.toList ++ a := by simp [notMem_of_isName htag, ha.notMem]
    have hclose : '>' ∉ '/' :: tag.toList := by simp [notMem_of_isName htag]
    have h := hs.bracesGrouped (.tag hopen (ihbody (.tag hclose (ihrest hr))))
    simpa only [List.append_assoc, List.cons_append] using h
  | @selfClosing s t a rest tag tail attrs es hs htag ha hrest ihrest =>
    intro r hr
    have hopen : '>' ∉ tag.toList ++ (a ++ ['/']) := by simp [notMem_of_isName htag, ha.notMem]
    have h := hs.bracesGrouped (.tag hopen (ihrest hr))
    simpa only [List.append_assoc, List.cons_append, List.nil_append] using h

end Xml
end ReactSite
