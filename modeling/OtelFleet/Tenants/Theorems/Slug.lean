import OtelFleet.Tenants.Service
import Mathlib.Data.List.Chain
import Mathlib.Data.List.DropRight

-- Which strings are slugs, and that derived slugs are.
namespace Tenants

structure Slugged (cs : List Char) : Prop where
  chars : ∀ c ∈ cs, isSlugChar c
  head : ∀ c ∈ cs.head?, isAlnum c
  last : ∀ c ∈ cs.getLast?, isAlnum c

theorem isSlugChar_of_isAlnum (h : isAlnum c) : isSlugChar c := by
  simp [isSlugChar, h]

theorem isAlnum_of_isSlugChar (h : isSlugChar c) (hc : c ≠ '-') : isAlnum c := by
  simpa [isSlugChar, hc] using h

theorem isAlnum_of_mem_itoa (h : c ∈ (Strconv.itoa n).toList) : isAlnum c := by
  have hd := Strconv.isDigit_of_mem_itoa h
  simp only [Char.isDigit, Bool.and_eq_true, decide_eq_true_eq] at hd
  simp only [isAlnum, Bool.or_eq_true, Bool.and_eq_true, decide_eq_true_eq]
  exact .inr hd

theorem validSlug_iff : validSlug s ↔ Slugged s.toList ∧ 3 ≤ s.length ∧ s.length ≤ 64 := by
  rw [← String.length_toList, validSlug]
  cases s.toList
  case nil => simp
  case cons c cs =>
    simp only [Bool.and_eq_true, decide_eq_true_eq, List.all_eq_true, Option.any_eq_true, List.length_cons]
    constructor
    case mp =>
      rintro ⟨⟨⟨⟨hc, h2⟩, h63⟩, hmid⟩, e, he, hlast⟩
      refine ⟨⟨?_, by simpa using hc, ?_⟩, by omega, by omega⟩
      · intro d hd
        obtain rfl | hd := List.mem_cons.mp hd
        · exact isSlugChar_of_isAlnum hc
        · rw [← List.dropLast_append_getLast? e he] at hd
          obtain hd | hd := List.mem_append.mp hd
          · exact hmid d hd
          · exact List.mem_singleton.mp hd ▸ isSlugChar_of_isAlnum hlast
      · intro d hd
        rw [List.getLast?_cons, he, Option.getD_some] at hd
        exact Option.mem_some.mp hd ▸ hlast
    case mpr =>
      rintro ⟨h, h3, h64⟩
      obtain ⟨e, he⟩ : ∃ e, cs.getLast? = some e :=
        ⟨_, List.getLast?_eq_some_getLast (List.ne_nil_of_length_pos (by omega))⟩
      refine ⟨⟨⟨⟨h.head c rfl, by omega⟩, by omega⟩, ?_⟩, e, he, ?_⟩
      · exact fun d hd => h.chars d (List.mem_cons_of_mem _ ((List.dropLast_sublist _).subset hd))
      · exact h.last e (by rw [List.getLast?_cons, he]; rfl)

theorem Slugged.trimHyphens (h : ∀ c ∈ cs, isSlugChar c) : Slugged (trimHyphens cs) := by
  have hchars : ∀ c ∈ Tenants.trimHyphens cs, isSlugChar c := fun c hc => h c (mem_of_mem_trimHyphens hc)
  refine ⟨hchars, ?_, ?_⟩
  · -- What is cut off at the end does not touch the first character that is left.
    intro c hc
    have hmem := hchars c (List.mem_of_mem_head? hc)
    have hp : Tenants.trimHyphens cs <+: cs.dropWhile (· == '-') := List.rdropWhile_prefix _ _
    have hne : cs.dropWhile (· == '-') ≠ [] := by
      intro hnil
      rw [hnil] at hp
      simp [List.prefix_nil.mp hp] at hc
    have hhead := List.head_dropWhile_not (· == '-') hne
    refine isAlnum_of_isSlugChar hmem ?_
    obtain ⟨t, ht⟩ := hp
    cases hcs : Tenants.trimHyphens cs
    case nil => simp [hcs] at hc
    case cons d ds =>
      obtain rfl : d = c := by simpa [hcs] using hc
      rw [hcs] at ht
      simpa [← ht] using hhead
  · intro c hc
    have hmem := hchars c (List.mem_of_getLast? hc)
    refine isAlnum_of_isSlugChar hmem ?_
    have hne : Tenants.trimHyphens cs ≠ [] := by rintro h; simp [h] at hc
    have hlast := List.rdropWhile_last_not (· == '-') (cs.dropWhile (· == '-')) hne
    rw [List.getLast?_eq_some_getLast hne, Option.mem_some] at hc
    rintro rfl
    exact hlast (beq_iff_eq.mpr hc)

theorem Slugged.padSlug (h : Slugged cs) : Slugged (padSlug cs) := by
  unfold Tenants.padSlug
  split_ifs with hnil
  case pos => exact ⟨List.all_eq_true.mp (by decide), by simp [isAlnum], by simp [isAlnum]⟩
  case neg =>
    refine ⟨?_, ?_, ?_⟩
    · intro c hc
      obtain hc | hc := List.mem_append.mp hc
      · exact h.chars c hc
      · exact List.eq_of_mem_replicate hc ▸ by decide
    · intro c hc
      rw [List.head?_append_of_ne_nil _ hnil] at hc
      exact h.head c hc
    · intro c hc
      rw [List.getLast?_append] at hc
      obtain hc | ⟨-, hc⟩ := Option.or_eq_some_iff.mp hc
      · exact List.eq_of_mem_replicate (List.mem_of_getLast? hc) ▸ by decide
      · exact h.last c hc

theorem length_padSlug (h : cs.length ≤ 64) : 3 ≤ (padSlug cs).length ∧ (padSlug cs).length ≤ 64 := by
  unfold padSlug
  split_ifs with hnil
  case pos => decide
  case neg =>
    have hpos := List.length_pos_of_ne_nil hnil
    rw [List.length_append, List.length_replicate]
    omega

theorem length_trimHyphens_le (cs : List Char) : (trimHyphens cs).length ≤ cs.length := by
  simp only [trimHyphens, List.length_reverse]
  refine (List.dropWhile_suffix _).length_le.trans ?_
  rw [List.length_reverse]
  exact (List.dropWhile_suffix _).length_le

theorem validSlug_deriveSlug (name : String) : validSlug (deriveSlug name) := by
  rw [validSlug_iff, ← String.length_toList, deriveSlug, String.toList_ofList]
  set cs := trimHyphens (hyphenate true (name.toList.map toLower)) with hcs
  have hslugged : Slugged cs := .trimHyphens fun c => hyphenate_isSlugChar
  split_ifs with hlen
  case pos =>
    refine ⟨.padSlug (.trimHyphens fun c hc => hslugged.chars c (List.mem_of_mem_take hc)), length_padSlug ?_⟩
    exact (length_trimHyphens_le _).trans (List.length_take_le _ _)
  case neg => exact ⟨hslugged.padSlug, length_padSlug (by omega)⟩

section Normal

variable {cs : List Char}

def Single (cs : List Char) : Prop :=
  cs.IsChain fun a b => a = '-' → b ≠ '-'

theorem single_iff : Single cs ↔ ¬['-', '-'] <:+: cs := by
  rw [Single, List.isChain_iff_forall_rel_of_append_cons_cons]
  constructor
  case mp =>
    rintro h ⟨front, back, rfl⟩
    exact h (show front ++ ['-', '-'] ++ back = front ++ '-' :: '-' :: back by simp) rfl rfl
  case mpr =>
    rintro h a b front back rfl rfl rfl
    exact h ⟨front, back, by simp⟩

theorem single_hyphenate (last : Bool) (cs : List Char) :
    Single (hyphenate last cs) ∧ (last → ∀ c ∈ (hyphenate last cs).head?, c ≠ '-') := by
  induction cs generalizing last
  case nil => exact ⟨.nil, by simp [hyphenate]⟩
  case cons c cs hi =>
    simp only [hyphenate]
    split_ifs with hc hlast
    · have hne : c ≠ '-' := by
        rintro rfl
        exact absurd hc (by decide)
      exact ⟨(hi false).left.cons fun _ _ heq => absurd heq hne, by simpa using fun _ => hne⟩
    · exact ⟨(hi true).left, fun _ => (hi true).right rfl⟩
    · exact ⟨(hi true).left.cons fun b hb _ => (hi true).right rfl b hb, fun h => absurd h hlast⟩

theorem Single.trimHyphens (h : Single cs) : Single (trimHyphens cs) := by
  obtain ⟨front, hfront⟩ := List.dropWhile_suffix (l := cs) (· == '-')
  obtain ⟨back, hback⟩ := List.rdropWhile_prefix (· == '-') (cs.dropWhile (· == '-'))
  rw [Single, ← hfront, ← hback] at h
  exact h.right_of_append.left_of_append

theorem Single.of_forall_ne (h : ∀ c ∈ cs, c ≠ '-') : Single cs := by
  refine List.Pairwise.isChain (List.pairwise_of_forall_mem_list ?_)
  intro a _ b hb _
  exact h b hb

theorem Single.padSlug (h : Single cs) : Single (padSlug cs) := by
  unfold Tenants.padSlug
  split_ifs
  · exact .of_forall_ne (by simp)
  · have hzero : ∀ c ∈ List.replicate (3 - cs.length) '0', c ≠ '-' := by
      intro c hc
      rw [List.eq_of_mem_replicate hc]
      decide
    exact List.IsChain.append h (Single.of_forall_ne hzero) fun _ _ c hc _ => hzero c (List.mem_of_mem_head? hc)

theorem single_deriveSlug (name : String) : Single (deriveSlug name).toList := by
  rw [deriveSlug, String.toList_ofList]
  have hsingle := (single_hyphenate true (name.toList.map toLower)).left.trimHyphens
  refine .padSlug ?_
  split_ifs
  · exact .trimHyphens (hsingle.take 64)
  · exact hsingle

theorem toLower_of_isSlugChar (h : isSlugChar c) : toLower c = c := by
  have hupper : ¬('A' ≤ c ∧ c ≤ 'Z') ∧ c ≤ 'z' := by
    simp only [isSlugChar, isAlnum, Bool.or_eq_true, Bool.and_eq_true, decide_eq_true_eq, beq_iff_eq] at h
    obtain (⟨ha, hz⟩ | ⟨-, h9⟩) | rfl := h
    · exact ⟨fun hc => absurd (ha.trans hc.right) (by decide), hz⟩
    · exact ⟨fun hc => absurd (hc.left.trans h9) (by decide), h9.trans (by decide)⟩
    · decide
  have hkelvin : c ≠ '\u212a' := ne_of_lt (lt_of_le_of_lt hupper.right (by decide))
  have hdotted : c ≠ '\u0130' := ne_of_lt (lt_of_le_of_lt hupper.right (by decide))
  rw [toLower, if_neg hupper.left, if_neg hkelvin, if_neg hdotted]

theorem hyphenate_of_single (h : ∀ c ∈ cs, isSlugChar c) (hs : Single cs) {last : Bool}
    (hlast : last → ∀ c ∈ cs.head?, c ≠ '-') : hyphenate last cs = cs := by
  induction cs generalizing last
  case nil => rfl
  case cons c cs hi =>
    rw [List.forall_mem_cons] at h
    have hrest := List.isChain_cons.mp hs
    rw [hyphenate]
    split_ifs with hc hl
    · rw [hi h.right hrest.right fun hfalse => absurd hfalse Bool.false_ne_true]
    · exact absurd (isAlnum_of_isSlugChar h.left (hlast hl c rfl)) hc
    · obtain rfl : c = '-' := by
        by_contra hne
        exact hc (isAlnum_of_isSlugChar h.left hne)
      rw [hi h.right hrest.right fun _ d hd => hrest.left d hd rfl]

theorem trimHyphens_eq (cs : List Char) : trimHyphens cs = (cs.dropWhile (· == '-')).rdropWhile (· == '-') :=
  rfl

theorem dropWhile_of_head (h : ∀ c ∈ cs.head?, isAlnum c) : cs.dropWhile (· == '-') = cs := by
  cases cs
  case nil => rfl
  case cons c cs =>
    refine List.dropWhile_cons_of_neg ?_
    have hc : isAlnum c := h c rfl
    rw [beq_iff_eq]
    rintro rfl
    exact absurd hc (by decide)

theorem trimHyphens_of_slugged (h : Slugged cs) : trimHyphens cs = cs := by
  rw [trimHyphens_eq, dropWhile_of_head h.head, List.rdropWhile_eq_self_iff]
  intro hne hlast
  have halnum : isAlnum (cs.getLast hne) := h.last _ (List.getLast?_eq_some_getLast hne)
  rw [beq_iff_eq.mp hlast] at halnum
  exact absurd halnum (by decide)

theorem padSlug_of_length (h : 3 ≤ cs.length) : padSlug cs = cs := by
  unfold padSlug
  rw [if_neg, Nat.sub_eq_zero_of_le h, List.replicate_zero, List.append_nil]
  rintro rfl
  exact absurd h (by decide)

-- The slugs that the derivation leaves as they are.
theorem deriveSlug_eq_self_iff : deriveSlug s = s ↔ validSlug s ∧ Single s.toList := by
  constructor
  case mp =>
    intro h
    rw [← h]
    exact ⟨validSlug_deriveSlug s, single_deriveSlug s⟩
  case mpr =>
    rintro ⟨hvalid, hsingle⟩
    obtain ⟨hs, h3, h64⟩ := validSlug_iff.mp hvalid
    rw [← String.length_toList] at h3 h64
    have hlower : s.toList.map toLower = s.toList :=
      (List.map_congr_left fun c hc => toLower_of_isSlugChar (hs.chars c hc)).trans (List.map_id' _)
    have hhead : ∀ c ∈ s.toList.head?, c ≠ '-' := by
      rintro c hc rfl
      exact absurd (hs.head _ hc) (by decide)
    have htrim : trimHyphens (hyphenate true (s.toList.map toLower)) = s.toList := by
      rw [hlower, hyphenate_of_single hs.chars hsingle fun _ => hhead, trimHyphens_of_slugged hs]
    rw [deriveSlug, htrim, if_neg (by omega), padSlug_of_length h3, String.ofList_toList]

-- What is derived is a slug without hyphens that follow one another, and nothing else would be
-- derived from it.
theorem deriveSlug_normalises (name : String) :
    validSlug (deriveSlug name) ∧ ¬['-', '-'] <:+: (deriveSlug name).toList ∧
      deriveSlug (deriveSlug name) = deriveSlug name := by
  have hvalid := validSlug_deriveSlug name
  have hsingle := single_deriveSlug name
  exact ⟨hvalid, single_iff.mp hsingle, deriveSlug_eq_self_iff.mpr ⟨hvalid, hsingle⟩⟩

end Normal

theorem validSlug_suffix_iff (h : validSlug s) (n : Nat) :
    validSlug (s ++ "-" ++ Strconv.itoa n) ↔ (s ++ "-" ++ Strconv.itoa n).length ≤ 64 := by
  obtain ⟨hs, h3, -⟩ := validSlug_iff.mp h
  rw [validSlug_iff]
  refine ⟨fun h => h.right.right, fun hle => ⟨?_, ?_, hle⟩⟩
  case refine_1 =>
    have hne : s.toList ≠ [] := List.ne_nil_of_length_pos (by rw [String.length_toList]; omega)
    have hdigits : (Strconv.itoa n).toList ≠ [] := by simp [Strconv.itoa]
    rw [String.toList_append, String.toList_append]
    refine ⟨?_, ?_, ?_⟩
    · intro c hc
      simp only [List.mem_append] at hc
      obtain (hc | hc) | hc := hc
      · exact hs.chars c hc
      · exact (show ∀ c ∈ "-".toList, isSlugChar c by simp [isSlugChar]) c hc
      · exact isSlugChar_of_isAlnum (isAlnum_of_mem_itoa hc)
    · intro c hc
      rw [List.append_assoc, List.head?_append_of_ne_nil _ hne] at hc
      exact hs.head c hc
    · intro c hc
      rw [List.getLast?_append_of_ne_nil _ hdigits] at hc
      exact isAlnum_of_mem_itoa (List.mem_of_getLast? hc)
  case refine_2 =>
    rw [String.length_append, String.length_append]
    omega

end Tenants
