import Mathlib.Data.List.Perm.Subperm
import Mathlib.Data.List.Sort
import Mathlib.Order.Basic
import Mathlib.Tactic.Common

-- Reading a table page by page, from the largest key down.
namespace Paging

section Following

variable {α β κ ε : Type} {request : Option κ → Except ε (List α × Option κ)} {c : Option κ} {out out' : List α}

inductive Follows (request : Option κ → Except ε (List α × Option κ)) : Option κ → List α → Prop
  | last {c rows} : request c = .ok (rows, none) → Follows request c rows
  | next {c rows c' out} : request c = .ok (rows, some c') → Follows request (some c') out →
    Follows request c (rows ++ out)

theorem Follows.unique (h : Follows request c out) (h' : Follows request c out') : out = out' := by
  induction h generalizing out'
  case last hp =>
    cases h'
    case last hp' => simpa [hp] using hp'
    case next _ hp' => simp [hp] at hp'
  case next hp _ hi =>
    cases h'
    case last hp' => simp [hp] at hp'
    case next h' hp' =>
      obtain ⟨rfl, rfl⟩ : _ = _ ∧ _ = _ := by simpa [hp] using hp'
      rw [hi h']

theorem Follows.map {request' : Option κ → Except ε (List β × Option κ)}
    (hpage : ∀ c rows next, request c = .ok (rows, next) → request' c = .ok (rows.map f, next))
    (h : Follows request c out) : Follows request' c (out.map f) := by
  induction h
  case last hp => exact .last (hpage _ _ _ hp)
  case next hp _ hi =>
    rw [List.map_append]
    exact .next (hpage _ _ _ hp) hi

def Complete [LE κ] (request : Option κ → Except ε (List α × Option κ)) (expected : List α) (key : α → κ) : Prop :=
  ∃ out, Follows request none out ∧ out.Perm expected ∧ out.Pairwise fun a b => key b ≤ key a

theorem complete_map_iff [LE κ] {request' : Option κ → Except ε (List β × Option κ)} {key : α → κ}
    (hkey : ∀ a, key' (f a) = key a)
    (hpage : ∀ c rows next, request c = .ok (rows, next) → request' c = .ok (rows.map f, next))
    (h : Follows request none out) (hsub : out.Subperm R) (hsorted : out.Pairwise fun a b => key b ≤ key a) :
    Complete request' (R.map f) key' ↔ out.Perm R := by
  constructor
  case mp =>
    rintro ⟨_, hout, hperm, _⟩
    obtain rfl := (h.map hpage).unique hout
    refine hsub.perm_of_length_le ?_
    have hlen := hperm.length_eq
    rw [List.length_map, List.length_map] at hlen
    exact hlen.ge
  case mpr =>
    intro hperm
    refine ⟨_, h.map hpage, hperm.map f, List.pairwise_map.mpr ?_⟩
    simpa only [hkey] using hsorted

end Following

variable {α κ : Type} [LinearOrder κ] {key : α → κ}

structure Descending (key : α → κ) where
  sort : List α → List α
  perm : ∀ l, (sort l).Perm l
  sorted : ∀ l, (sort l).Pairwise fun a b => key b ≤ key a

-- The one that keeps rows with the same key as they are.
def Descending.stable (key : α → κ) : Descending key where
  sort l := l.insertionSort fun a b => key b ≤ key a
  perm l := List.perm_insertionSort _ l
  sorted l := by
    have total : Std.Total fun a b => key b ≤ key a := ⟨fun a b => le_total (key b) (key a)⟩
    have trans : IsTrans α fun a b => key b ≤ key a := ⟨fun _ _ _ h h' => h'.trans h⟩
    exact List.pairwise_insertionSort _ l

theorem descending_of_nodup {l : List α} (hkeys : (l.map key).Nodup) (h : l.Pairwise fun a b => key b ≤ key a) :
    l.Pairwise fun a b => key b < key a := by
  have hne : l.Pairwise fun a b => key a ≠ key b := List.pairwise_map.mp hkeys
  exact (h.and hne).imp fun hab => hab.left.lt_of_ne hab.right.symm

def under (key : α → κ) (before : Option κ) (l : List α) : List α :=
  l.filter fun a => ∀ c ∈ before, key a < c

-- One page: the first rows below the cursor, without those that are not kept. The next cursor is the
-- key of its last row, if the page is full.
def page (order : Descending key) (limit : Nat) (keep : α → Bool) (l : List α) (before : Option κ) :
    List α × Option κ :=
  let rows := ((order.sort (under key before l)).take limit).filter keep
  (rows, if rows.length < limit ∨ rows.length = 0 then none else rows.getLast?.map key)

def rank (key : α → κ) (l : List α) (a : α) : Nat :=
  l.countP fun b => key a < key b

section Pages

variable {order : Descending key} {n : Nat} {keep : α → Bool}

@[simp]
theorem mem_under : a ∈ under key before l ↔ a ∈ l ∧ ∀ c ∈ before, key a < c := by
  simp [under]

@[simp]
theorem under_none : under key none l = l := by
  simp [under]

theorem under_some (h : a ∈ under key before l) :
    under key (some (key a)) l = (under key before l).filter fun b => key b < key a := by
  simp only [under, List.filter_filter]
  refine List.filter_congr fun b _ => ?_
  rw [Bool.eq_iff_iff]
  simp only [Option.mem_def, Option.some.injEq, forall_eq', decide_eq_true_eq, Bool.and_eq_true]
  exact ⟨fun hb => ⟨hb, fun c hc => hb.trans ((mem_under.mp h).right c hc)⟩, And.left⟩

-- The last page, and what is left behind it: only what comes after a full page of which not all is kept.
structure Stop (key : α → κ) (n : Nat) (keep : α → Bool) (R P Q : List α) : Prop where
  perm : R.Perm (P ++ Q)
  sorted : (P ++ Q).Pairwise fun a b => key b ≤ key a
  length : P.length ≤ n
  left : Q = [] ∨ P.length = n ∧ ∃ a ∈ P, ¬keep a

structure Turn (key : α → κ) (n : Nat) (keep : α → Bool) (R P Q : List α) (last : α) : Prop where
  perm : R.Perm (P ++ Q)
  length : P.length = n
  keeps : ∀ a ∈ P, keep a
  mem : last ∈ P
  sorted : P.Pairwise fun a b => key b ≤ key a
  least : ∀ a ∈ P, key last ≤ key a
  behind : ∀ a ∈ Q, key a ≤ key last

theorem page_cases (order : Descending key) (hn : 0 < n) (keep : α → Bool) (l : List α) (before : Option κ) :
    (∃ P Q, Stop key n keep (under key before l) P Q ∧ page order n keep l before = (P.filter keep, none)) ∨
      ∃ P Q last, Turn key n keep (under key before l) P Q last ∧ page order n keep l before = (P, some (key last)) := by
  have hperm : (under key before l).Perm
      ((order.sort (under key before l)).take n ++ (order.sort (under key before l)).drop n) := by
    rw [List.take_append_drop]
    exact (order.perm _).symm
  have hsorted := order.sorted (under key before l)
  rw [← List.take_append_drop n (order.sort (under key before l))] at hsorted
  have hle : ((order.sort (under key before l)).take n).length ≤ n := List.length_take_le _ _
  have hrest : (order.sort (under key before l)).drop n = [] ∨ ((order.sort (under key before l)).take n).length = n := by
    rw [List.drop_eq_nil_iff, List.length_take]
    omega
  unfold page
  generalize (order.sort (under key before l)).take n = P at hperm hsorted hle hrest ⊢
  generalize (order.sort (under key before l)).drop n = Q at hperm hsorted hrest
  by_cases hfull : (P.filter keep).length < n
  case pos =>
    refine .inl ⟨P, Q, ⟨hperm, hsorted, hle, ?_⟩, by simp [hfull]⟩
    refine hrest.imp_right fun hlen => ⟨hlen, ?_⟩
    by_contra hall
    push Not at hall
    rw [List.filter_eq_self.mpr hall, hlen] at hfull
    exact lt_irrefl n hfull
  case neg =>
    have hlen : P.length = n := le_antisymm hle ((not_lt.mp hfull).trans (List.length_filter_le _ _))
    have hkeep : P.filter keep = P :=
      List.filter_sublist.eq_of_length (le_antisymm (List.length_filter_le _ _) (hlen.trans_le (not_lt.mp hfull)))
    have hne : P ≠ [] := List.ne_nil_of_length_pos (hlen ▸ hn)
    have hlast : P = P.dropLast ++ [P.getLast hne] := (List.dropLast_append_getLast hne).symm
    have hpair := List.pairwise_append.mp hsorted
    have hleast : ∀ a ∈ P, key (P.getLast hne) ≤ key a := by
      intro a ha
      rw [hlast] at ha
      obtain ha | ha := List.mem_append.mp ha
      · have hP := hpair.left
        rw [hlast] at hP
        exact (List.pairwise_append.mp hP).right.right a ha _ (List.mem_singleton.mpr rfl)
      · rw [List.mem_singleton.mp ha]
    refine .inr ⟨P, Q, P.getLast hne, ⟨hperm, hlen, List.filter_eq_self.mp hkeep, List.getLast_mem hne, hpair.left,
      hleast, fun a ha => hpair.right.right _ (List.getLast_mem hne) a ha⟩, ?_⟩
    simp only [hkeep, hlen, lt_irrefl, hn.ne', or_self, if_false, List.getLast?_eq_some_getLast hne, Option.map_some]

namespace Turn

variable {R P Q : List α} {last : α} (h : Turn key n keep R P Q last)
include h

theorem last_mem : last ∈ R :=
  h.perm.mem_iff.mpr (List.mem_append_left Q h.mem)

theorem rest_perm : (R.filter fun b => key b < key last).Perm (Q.filter fun b => key b < key last) := by
  have hnone : P.filter (fun b => key b < key last) = [] := by
    rw [List.filter_eq_nil_iff]
    exact fun a ha => by simpa using h.least a ha
  refine (h.perm.filter _).trans ?_
  rw [List.filter_append, hnone, List.nil_append]

theorem rest_length_lt (hn : 0 < n) : (R.filter fun b => key b < key last).length < R.length := by
  have hle := List.length_filter_le (fun b => decide (key b < key last)) Q
  rw [h.rest_perm.length_eq, h.perm.length_eq, List.length_append, h.length]
  omega

theorem filter_perm : (R.filter keep).Perm (P ++ Q.filter keep) := by
  refine (h.perm.filter keep).trans ?_
  rw [List.filter_append, List.filter_eq_self.mpr h.keeps]

theorem rest_perm_of_lt (hlt : ∀ a ∈ Q, key a < key last) : (R.filter fun b => key b < key last).Perm Q := by
  refine h.rest_perm.trans ?_
  rw [List.filter_eq_self.mpr fun a ha => by simpa using hlt a ha]

-- If no row behind the page has the key of its last one, all rows come out if all that are behind it do.
theorem append_perm_iff (hlt : ∀ a ∈ Q, key a < key last) (out : List α) :
    (P ++ out).Perm (R.filter keep) ↔ out.Perm ((R.filter fun b => key b < key last).filter keep) := by
  have hQ := (h.rest_perm_of_lt hlt).filter keep
  calc (P ++ out).Perm (R.filter keep)
    _ ↔ (P ++ out).Perm (P ++ Q.filter keep) :=
      ⟨fun hp => hp.trans h.filter_perm, fun hp => hp.trans h.filter_perm.symm⟩
    _ ↔ out.Perm (Q.filter keep) := List.perm_append_left_iff P
    _ ↔ _ := ⟨fun hp => hp.trans hQ.symm, fun hp => hp.trans hQ⟩

end Turn

theorem follows_exists (order : Descending key) (hn : 0 < n) (keep : α → Bool) (l : List α) (before : Option κ) :
    ∃ out, Follows (fun c => (.ok (page order n keep l c) : Except ε _)) before out := by
  induction hlen : (under key before l).length using Nat.strong_induction_on generalizing before
  case _ len hi =>
    obtain ⟨P, Q, -, hpage⟩ | ⟨P, Q, last, hturn, hpage⟩ := page_cases order hn keep l before
    · exact ⟨_, .last (congrArg Except.ok hpage)⟩
    · have hlt := hturn.rest_length_lt hn
      rw [← under_some hturn.last_mem, hlen] at hlt
      obtain ⟨out, hout⟩ := hi _ hlt (some (key last)) rfl
      exact ⟨_, .next (congrArg Except.ok hpage) hout⟩

@[elab_as_elim]
theorem Follows.induct (hn : 0 < n) {motive : Option κ → List α → Prop}
    (stop : ∀ before P Q, Stop key n keep (under key before l) P Q → motive before (P.filter keep))
    (turn : ∀ before P Q last out, Turn key n keep (under key before l) P Q last →
      Follows (fun c => (.ok (page order n keep l c) : Except ε _)) (some (key last)) out →
      motive (some (key last)) out → motive before (P ++ out))
    (h : Follows (fun c => (.ok (page order n keep l c) : Except ε _)) before out) : motive before out := by
  induction h
  case last before rows hrows =>
    obtain ⟨P, Q, hstop, hpage⟩ | ⟨P, Q, last, -, hpage⟩ := page_cases order hn keep l before
    · obtain rfl : P.filter keep = rows := by simpa [hpage] using hrows
      exact stop before P Q hstop
    · simp [hpage] at hrows
  case next before rows c' out hrows hrest hi =>
    obtain ⟨P, Q, -, hpage⟩ | ⟨P, Q, last, hturn, hpage⟩ := page_cases order hn keep l before
    · simp [hpage] at hrows
    · obtain ⟨rfl, rfl⟩ : P = rows ∧ key last = c' := by simpa [hpage] using hrows
      exact turn before P Q last out hturn hrest hi

theorem Follows.subperm (hn : 0 < n) (h : Follows (fun c => (.ok (page order n keep l c) : Except ε _)) before out) :
    out.Subperm ((under key before l).filter keep) ∧ out.Pairwise fun a b => key b ≤ key a := by
  refine Follows.induct hn (fun before P Q hstop => ?stop) (fun before P Q last out hturn _ hi => ?turn) h
  case stop =>
    have hle : P.Subperm (under key before l) := (List.sublist_append_left P Q).subperm.trans hstop.perm.symm.subperm
    exact ⟨hle.filter _, (List.pairwise_append.mp hstop.sorted).left.filter _⟩
  case turn =>
    refine ⟨?_, List.pairwise_append.mpr ⟨hturn.sorted, hi.right, fun a ha b hb => ?_⟩⟩
    · have hrest := hi.left
      rw [under_some hturn.last_mem] at hrest
      have hQ : out.Subperm (Q.filter keep) :=
        hrest.trans ((hturn.rest_perm.filter keep).subperm.trans (List.filter_sublist.filter keep).subperm)
      exact ((List.subperm_append_left P).mpr hQ).trans hturn.filter_perm.symm.subperm
    · have hb' := (mem_under.mp (List.mem_filter.mp (hi.left.subset hb)).left).right _ rfl
      exact hb'.le.trans (hturn.least a ha)

end Pages

section Ties

variable {order : Descending key} {n : Nat} {l R P Q : List α}

def Together (key : α → κ) (n : Nat) (R : List α) : Prop :=
  ∀ a ∈ R, ((R.countP fun b => key a ≤ key b) - 1) / n = rank key R a / n

instance (R : List α) : Decidable (Together key n R) :=
  inferInstanceAs <| Decidable <| ∀ a ∈ R, _ = _

theorem rank_of_perm (h : R.Perm Q) (a : α) : rank key R a = rank key Q a :=
  h.countP_eq _

theorem Together.of_perm (h : Together key n R) (hp : R.Perm Q) : Together key n Q := by
  intro a ha
  have hR := h a (hp.mem_iff.mpr ha)
  rwa [rank_of_perm hp, hp.countP_eq] at hR

theorem together_perm (hp : R.Perm Q) : Together key n R ↔ Together key n Q :=
  ⟨fun h => h.of_perm hp, fun h => h.of_perm hp.symm⟩

theorem rank_append (P Q : List α) (a : α) : rank key (P ++ Q) a = rank key P a + rank key Q a :=
  List.countP_append

theorem rank_append_left (ha : a ∈ P) (hQ : ∀ b ∈ Q, key b ≤ key a) : rank key (P ++ Q) a < P.length := by
  have hzero : rank key Q a = 0 := by
    rw [rank, List.countP_eq_zero]
    exact fun b hb => by simpa using hQ b hb
  rw [rank_append, hzero, Nat.add_zero, rank, List.countP_eq_length_filter,
    List.length_filter_lt_length_iff_exists]
  exact ⟨a, ha, by simp⟩

theorem rank_append_right (hP : ∀ b ∈ P, key a < key b) : rank key (P ++ Q) a = P.length + rank key Q a := by
  rw [rank_append]
  congr 1
  rw [rank, List.countP_eq_length]
  exact fun b hb => by simpa using hP b hb

theorem together_append (hn : 0 < n) (hlen : P.length = n) (hP : ∀ a ∈ P, c ≤ key a) (hQ : ∀ a ∈ Q, key a < c) :
    Together key n (P ++ Q) ↔ Together key n Q := by
  have hright {a : α} (ha : a ∈ Q) :
      (((P ++ Q).countP fun b => key a ≤ key b) - 1) / n = rank key (P ++ Q) a / n ↔
        ((Q.countP fun b => key a ≤ key b) - 1) / n = rank key Q a / n := by
    have hall : P.countP (fun b => key a ≤ key b) = n := by
      rw [← hlen, List.countP_eq_length]
      exact fun b hb => by simpa using (hQ a ha).le.trans (hP b hb)
    have hself : 0 < Q.countP fun b => key a ≤ key b := List.countP_pos_iff.mpr ⟨a, ha, by simp⟩
    rw [rank_append_right fun b hb => (hQ a ha).trans_le (hP b hb), List.countP_append, hall, hlen,
      Nat.add_sub_assoc hself, Nat.add_div_left _ hn, Nat.add_div_left _ hn]
    exact Nat.add_right_cancel_iff
  constructor
  case mp => exact fun h a ha => (hright ha).mp (h a (List.mem_append_right P ha))
  case mpr =>
    intro h a ha
    obtain ha | ha := List.mem_append.mp ha
    · -- The first page holds everything with a key as large as this.
      have hQa (b : α) (hb : b ∈ Q) : key b < key a := (hQ b hb).trans_le (hP a ha)
      have hle : ((P ++ Q).countP fun b => key a ≤ key b) ≤ n := by
        have hzero : Q.countP (fun b => key a ≤ key b) = 0 :=
          List.countP_eq_zero.mpr fun b hb => by simpa using hQa b hb
        rw [List.countP_append, hzero, Nat.add_zero, ← hlen]
        exact List.countP_le_length
      have hlt := rank_append_left ha fun b hb => (hQa b hb).le
      rw [hlen] at hlt
      rw [Nat.div_eq_of_lt hlt, Nat.div_eq_of_lt (by omega)]
    · exact (hright ha).mpr (h a ha)

theorem Turn.not_together (h : Turn key n keep R P Q last) (hb : b ∈ Q)
    (heq : key b = key last) (hn : 0 < n) : ¬Together key n R := by
  intro ht
  have hlast := ht.of_perm h.perm last (List.mem_append_left Q h.mem)
  have hlt := rank_append_left h.mem h.behind
  rw [h.length] at hlt
  have hP : P.countP (fun a => key last ≤ key a) = n := by
    rw [← h.length, List.countP_eq_length]
    exact fun a ha => by simpa using h.least a ha
  have hQ : 0 < Q.countP fun a => key last ≤ key a := List.countP_pos_iff.mpr ⟨b, hb, by simp [heq]⟩
  rw [Nat.div_eq_of_lt hlt, Nat.div_eq_zero_iff, List.countP_append, hP] at hlast
  omega

-- Paging is complete if and only if no page ends in the middle of rows with the same key.
theorem Follows.perm_iff_together (hn : 0 < n)
    (h : Follows (fun c => (.ok (page order n (fun _ => true) l c) : Except ε _)) before out) :
    out.Perm (under key before l) ↔ Together key n (under key before l) := by
  refine Follows.induct hn (fun before P Q hstop => ?stop) (fun before P Q last out hturn hrest hi => ?turn) h
  case stop =>
    obtain rfl : Q = [] := by simpa using hstop.left
    have hperm := hstop.perm
    rw [List.append_nil] at hperm
    rw [List.filter_true]
    refine iff_of_true hperm.symm fun a ha => ?_
    have hall : ((under key before l).countP fun b => key a ≤ key b) ≤ n :=
      List.countP_le_length.trans (hperm.length_eq.trans_le hstop.length)
    have hlt : rank key (_ ++ []) a < _ := rank_append_left (hperm.mem_iff.mp ha) (by simp)
    rw [List.append_nil] at hlt
    rw [rank_of_perm hperm, Nat.div_eq_of_lt (hlt.trans_le hstop.length), Nat.div_eq_of_lt]
    omega
  case turn =>
    rw [under_some hturn.last_mem] at hi
    by_cases hsplit : ∀ a ∈ Q, key a < key last
    · have hall := hturn.append_perm_iff hsplit out
      rw [List.filter_true, List.filter_true] at hall
      rw [hall, hi, together_perm (hturn.rest_perm_of_lt hsplit), together_perm hturn.perm,
        together_append hn hturn.length hturn.least hsplit]
    · push Not at hsplit
      obtain ⟨b, hb, hge⟩ := hsplit
      have heq : key b = key last := le_antisymm (hturn.behind b hb) hge
      refine iff_of_false (fun hperm => ?_) (hturn.not_together hb heq hn)
      -- The rows with the key of the cursor are behind it for good.
      have hlt : (Q.filter fun b => key b < key last).length < Q.length :=
        List.length_filter_lt_length_iff_exists.mpr ⟨b, hb, by simp [heq]⟩
      have hle := (hrest.subperm hn).left.length_le
      rw [List.filter_true, under_some hturn.last_mem, hturn.rest_perm.length_eq] at hle
      have hlen := hperm.length_eq.trans hturn.perm.length_eq
      rw [List.length_append, List.length_append] at hlen
      omega

end Ties

section Filters

variable {order : Descending key} {n : Nat} {keep : α → Bool} {l R P Q : List α}

-- No row that is kept is on a later page than one that is not, if pages hold `n` rows each.
def Apart (key : α → κ) (n : Nat) (keep : α → Bool) (R : List α) : Prop :=
  ∀ a ∈ R, ∀ b ∈ R, keep a → ¬keep b → rank key R a / n ≤ rank key R b / n

instance (R : List α) : Decidable (Apart key n keep R) :=
  inferInstanceAs <| Decidable <| ∀ a ∈ R, ∀ b ∈ R, _

theorem Apart.of_perm (h : Apart key n keep R) (hp : R.Perm Q) : Apart key n keep Q := by
  intro a ha b hb hka hkb
  have hR := h a (hp.mem_iff.mpr ha) b (hp.mem_iff.mpr hb) hka hkb
  rwa [rank_of_perm hp, rank_of_perm hp] at hR

theorem apart_perm (hp : R.Perm Q) : Apart key n keep R ↔ Apart key n keep Q :=
  ⟨fun h => h.of_perm hp, fun h => h.of_perm hp.symm⟩

theorem apart_append (hn : 0 < n) (hlen : P.length = n) (hkeep : ∀ a ∈ P, keep a)
    (hlt : ∀ a ∈ P, ∀ b ∈ Q, key b < key a) : Apart key n keep (P ++ Q) ↔ Apart key n keep Q := by
  have hright {a : α} (ha : a ∈ Q) : rank key (P ++ Q) a / n = rank key Q a / n + 1 := by
    rw [rank_append_right fun b hb => hlt b hb a ha, hlen, Nat.add_div_left _ hn]
  constructor
  case mp =>
    intro h a ha b hb hka hkb
    have hab := h a (List.mem_append_right P ha) b (List.mem_append_right P hb) hka hkb
    rw [hright ha, hright hb] at hab
    exact Nat.le_of_succ_le_succ hab
  case mpr =>
    intro h a ha b hb hka hkb
    have hb : b ∈ Q := (List.mem_append.mp hb).resolve_left fun hP => hkb (hkeep b hP)
    obtain ha | ha := List.mem_append.mp ha
    · have hfirst := rank_append_left ha fun b hb => (hlt a ha b hb).le
      rw [hlen] at hfirst
      rw [Nat.div_eq_of_lt hfirst]
      exact Nat.zero_le _
    · rw [hright ha, hright hb]
      exact Nat.succ_le_succ (h a ha b hb hka hkb)

theorem Stop.apart_iff (h : Stop key n keep R P Q) (hn : 0 < n) (hlt : ∀ a ∈ P, ∀ b ∈ Q, key b < key a) :
    Apart key n keep R ↔ Q.filter keep = [] := by
  rw [apart_perm h.perm, List.filter_eq_nil_iff]
  constructor
  case mp =>
    intro hapart a ha hka
    obtain rfl | ⟨hlen, b, hb, hkb⟩ := h.left
    · cases ha
    · have hab := hapart a (List.mem_append_right P ha) b (List.mem_append_left Q hb) hka hkb
      have hfirst := rank_append_left hb fun c hc => (hlt b hb c hc).le
      rw [hlen] at hfirst
      rw [rank_append_right fun c hc => hlt c hc a ha, hlen, Nat.add_div_left _ hn, Nat.div_eq_of_lt hfirst] at hab
      exact absurd hab (Nat.not_succ_le_zero _)
  case mpr =>
    intro hnone a ha b _ hka _
    have ha : a ∈ P := (List.mem_append.mp ha).resolve_right fun hQ => hnone a hQ hka
    have hfirst := rank_append_left ha fun c hc => (hlt a ha c hc).le
    rw [Nat.div_eq_of_lt (hfirst.trans_le h.length)]
    exact Nat.zero_le _

theorem lt_of_sorted (hkeys : ((P ++ Q).map key).Nodup) (ha : a ∈ P) (hb : b ∈ Q) (hle : key b ≤ key a) :
    key b < key a := by
  rw [List.map_append] at hkeys
  refine hle.lt_of_ne fun heq => ?_
  exact List.disjoint_of_nodup_append hkeys (List.mem_map_of_mem ha) (heq ▸ List.mem_map_of_mem hb)

-- Paging over distinct keys is complete if and only if nothing that is kept comes after the first page
-- that is not full any more.
theorem Follows.perm_iff_apart (hn : 0 < n) (hkeys : (l.map key).Nodup)
    (h : Follows (fun c => (.ok (page order n keep l c) : Except ε _)) before out) :
    out.Perm ((under key before l).filter keep) ↔ Apart key n keep (under key before l) := by
  have hunder (before : Option κ) : ((under key before l).map key).Nodup :=
    hkeys.sublist (List.filter_sublist.map key)
  refine Follows.induct hn (fun before P Q hstop => ?stop) (fun before P Q last out hturn _ hi => ?turn) h
  case stop =>
    have hdistinct := (hstop.perm.map key).nodup_iff.mp (hunder before)
    have hfilter : ((under key before l).filter keep).Perm (P.filter keep ++ Q.filter keep) := by
      rw [← List.filter_append]
      exact hstop.perm.filter keep
    rw [hstop.apart_iff hn fun a ha b hb =>
      lt_of_sorted hdistinct ha hb ((List.pairwise_append.mp hstop.sorted).right.right a ha b hb)]
    constructor
    case mp =>
      intro hall
      have hlen := (hall.trans hfilter).length_eq
      rw [List.length_append] at hlen
      exact List.eq_nil_of_length_eq_zero (by omega)
    case mpr =>
      intro hnil
      rw [hnil, List.append_nil] at hfilter
      exact hfilter.symm
  case turn =>
    have hdistinct := (hturn.perm.map key).nodup_iff.mp (hunder before)
    have hbehind (b : α) (hb : b ∈ Q) : key b < key last := lt_of_sorted hdistinct hturn.mem hb (hturn.behind b hb)
    rw [under_some hturn.last_mem] at hi
    rw [hturn.append_perm_iff hbehind, hi, apart_perm (hturn.rest_perm_of_lt hbehind), apart_perm hturn.perm]
    exact (apart_append hn hturn.length hturn.keeps fun a ha b hb => (hbehind b hb).trans_le (hturn.least a ha)).symm

end Filters

end Paging
