import Mathlib.Data.String.Basic
import Mathlib.Tactic.Common

-- Regular expressions without groups and alternatives, in the syntax of RE2, as they match whole texts.
namespace Regex

inductive Class where
  | char (c : Char)
  | any
  | noneOf (cs : List Char)
deriving DecidableEq

def Class.has : Class → Char → Bool
  | char d, c => c = d
  | any, c => c ≠ '\n'
  | noneOf cs, c => c ∉ cs

inductive Token where
  -- The beginning of the text.
  | bol
  | cls (k : Class)
  | star
  | plus
deriving DecidableEq

inductive Item where
  | bol
  | one (k : Class)
  | many (k : Class)

inductive Mode where
  | top
  | escape
  | bracket
  | inside (cs : List Char)

def isMeta (c : Char) : Bool :=
  "\\.+*?()|[]\x7b\x7d^$".toList.contains c

-- Groups, alternatives, ranges, counted repetitions and classes of other kinds are not covered.
def scan : Mode → List Char → Option (List Token)
  | .top, [] => some []
  | .escape, [] | .bracket, [] | .inside _, [] => none
  | .top, c :: cs =>
    if c = '^' then (scan .top cs).map (.bol :: ·)
    else if c = '.' then (scan .top cs).map (.cls .any :: ·)
    else if c = '*' then (scan .top cs).map (.star :: ·)
    else if c = '+' then (scan .top cs).map (.plus :: ·)
    else if c = '\\' then scan .escape cs
    else if c = '[' then scan .bracket cs
    else if isMeta c then none
    else (scan .top cs).map (.cls (.char c) :: ·)
  | .escape, c :: cs => if isMeta c then (scan .top cs).map (.cls (.char c) :: ·) else none
  | .bracket, c :: cs => if c = '^' then scan (.inside []) cs else none
  | .inside known, c :: cs =>
    if c = ']' then if known = [] then none else (scan .top cs).map (.cls (.noneOf known) :: ·)
    else if c = '-' ∨ c = '\\' ∨ c = '[' then none
    else scan (.inside (known ++ [c])) cs

def quantify : List Token → Option (List Item)
  | [] => some []
  | .bol :: ts => (quantify ts).map (.bol :: ·)
  | .cls k :: .star :: ts => (quantify ts).map (.many k :: ·)
  | .cls k :: .plus :: ts => (quantify ts).map fun items => .one k :: .many k :: items
  | .cls k :: ts => (quantify ts).map (.one k :: ·)
  | .star :: _ | .plus :: _ => none

def parse (pattern : String) : Option (List Item) :=
  (scan .top pattern.toList).bind quantify

def acceptsMany (k : Class) (rest : Bool → List Char → Bool) : Bool → List Char → Bool
  | start, [] => rest start []
  | start, c :: cs => rest start (c :: cs) || (k.has c && acceptsMany k rest false cs)

def accepts : List Item → Bool → List Char → Bool
  | [] => fun _ cs => cs = []
  | .bol :: items => fun start cs => start && accepts items start cs
  | .one k :: items => fun _ cs =>
    match cs with
    | [] => false
    | c :: cs => k.has c && accepts items false cs
  | .many k :: items => acceptsMany k (accepts items)

-- Whether the pattern matches the whole text, if the pattern is covered.
def fullMatch (pattern text : String) : Option Bool :=
  (parse pattern).map fun items => accepts items true text.toList

def quoteMeta (s : String) : String :=
  .ofList (s.toList.flatMap fun c => if isMeta c then ['\\', c] else [c])

section Parsing

theorem scan_literal (h : isMeta c = false) (cs : List Char) :
    scan .top (c :: cs) = (scan .top cs).map (.cls (.char c) :: ·) := by
  have hne : ∀ d, isMeta d = true → c ≠ d := by
    rintro d hd rfl
    exact absurd hd (by simp [h])
  simp only [scan, h, hne '^' rfl, hne '.' rfl, hne '*' rfl, hne '+' rfl, hne '\\' rfl, hne '[' rfl, if_false,
    Bool.false_eq_true]

theorem scan_escaped (h : isMeta c = true) (cs : List Char) :
    scan .top ('\\' :: c :: cs) = (scan .top cs).map (.cls (.char c) :: ·) := by
  simp [scan, h]

theorem scan_quoteMeta (s : String) (cs : List Char) :
    scan .top ((quoteMeta s).toList ++ cs) =
      (scan .top cs).map (s.toList.map (fun c => Token.cls (.char c)) ++ ·) := by
  simp only [quoteMeta, String.toList_ofList]
  induction s.toList
  case nil => simp
  case cons c rest hi =>
    rw [List.flatMap_cons, List.append_assoc]
    cases h : isMeta c
    · rw [if_neg (by simp), List.singleton_append, scan_literal h, hi, Option.map_map]
      rfl
    · rw [if_pos rfl, List.cons_append, List.cons_append, List.nil_append, scan_escaped h, hi, Option.map_map]
      rfl

theorem quantify_chars (cs : List Char) (k : Class) (ts : List Token) :
    quantify (cs.map (fun c => Token.cls (.char c)) ++ .cls k :: ts) =
      (quantify (.cls k :: ts)).map (cs.map (fun c => Item.one (.char c)) ++ ·) := by
  induction cs
  case nil => simp
  case cons c rest hi =>
    have hone : quantify (.cls (.char c) :: (rest.map (fun c => Token.cls (.char c)) ++ .cls k :: ts)) =
        (quantify (rest.map (fun c => Token.cls (.char c)) ++ .cls k :: ts)).map (.one (.char c) :: ·) := by
      cases rest <;> rfl
    rw [List.map_cons, List.cons_append, hone, hi, Option.map_map]
    rfl

end Parsing

section Meaning

theorem acceptsMany_iff :
    acceptsMany k rest start cs = true ↔
      ∃ a b, cs = a ++ b ∧ (∀ c ∈ a, k.has c) ∧ rest (start && a.isEmpty) b = true := by
  induction cs generalizing start
  case nil =>
    simp only [acceptsMany]
    constructor
    · exact fun h => ⟨[], [], rfl, by simp, by simpa using h⟩
    · rintro ⟨a, b, he, _, h⟩
      obtain ⟨rfl, rfl⟩ := List.append_eq_nil_iff.mp he.symm
      simpa using h
  case cons c cs hi =>
    simp only [acceptsMany, Bool.or_eq_true, Bool.and_eq_true, hi]
    constructor
    · rintro (h | ⟨hc, a, b, rfl, ha, h⟩)
      · exact ⟨[], c :: cs, rfl, by simp, by simpa using h⟩
      · exact ⟨c :: a, b, rfl, List.forall_mem_cons.mpr ⟨hc, ha⟩, by simpa using h⟩
    · rintro ⟨_ | ⟨d, a⟩, b, he, ha, h⟩
      · exact .inl (by simpa [he] using h)
      · obtain ⟨rfl, rfl⟩ := List.cons_eq_cons.mp he
        obtain ⟨hc, ha⟩ := List.forall_mem_cons.mp ha
        exact .inr ⟨hc, a, b, rfl, ha, by simpa using h⟩

theorem accepts_bol : accepts (.bol :: items) true cs = accepts items true cs :=
  Bool.true_and _

theorem accepts_many_iff :
    accepts (.many k :: items) start cs = true ↔
      ∃ a b, cs = a ++ b ∧ (∀ c ∈ a, k.has c) ∧ accepts items (start && a.isEmpty) b = true :=
  acceptsMany_iff

theorem accepts_one_iff :
    accepts (.one k :: items) start cs = true ↔
      ∃ c rest, cs = c :: rest ∧ k.has c ∧ accepts items false rest = true := by
  cases cs <;> simp [accepts]

theorem accepts_chars_iff (h : text ≠ []) :
    accepts (text.map (fun c => Item.one (.char c)) ++ items) start cs = true ↔
      ∃ rest, cs = text ++ rest ∧ accepts items false rest = true := by
  induction text generalizing start cs
  case nil => exact absurd rfl h
  case cons c text hi =>
    rw [List.map_cons, List.cons_append, accepts_one_iff]
    by_cases hnil : text = []
    · subst hnil
      simp [Class.has]
    · simp only [hi hnil]
      constructor
      · rintro ⟨d, _, rfl, hd, rest, rfl, hrest⟩
        obtain rfl : d = c := by simpa [Class.has] using hd
        exact ⟨rest, rfl, hrest⟩
      · rintro ⟨rest, rfl, hrest⟩
        exact ⟨c, text ++ rest, rfl, by simp [Class.has], rest, rfl, hrest⟩

theorem accepts_anything_iff : accepts [.many .any] start cs = true ↔ '\n' ∉ cs := by
  rw [accepts_many_iff]
  constructor
  · rintro ⟨a, b, rfl, ha, hb⟩
    obtain rfl : b = [] := by simpa [accepts] using hb
    rw [List.append_nil]
    exact fun hm => by simpa [Class.has] using ha _ hm
  · intro h
    refine ⟨cs, [], by simp, fun c hc => ?_, by simp [accepts]⟩
    simpa [Class.has] using fun he : c = '\n' => h (he ▸ hc)

end Meaning

end Regex
