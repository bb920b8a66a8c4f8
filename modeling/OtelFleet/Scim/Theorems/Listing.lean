import OtelFleet.Scim.Server

open Store (UUID Accounts UserError UserWithIdentities)
open Strings (Casing)

-- Pages of the list of users.
namespace Scim

section Positions

variable {α : Type}

def between (lo hi : Int) (l : List α) : List α :=
  ((l.zipIdx 1).filter fun x => lo ≤ (x.2 : Int) ∧ (x.2 : Int) < hi).map (·.1)

theorem zipIdx_between (lo hi : Int) (l : List α) (i : Nat) :
    ((l.zipIdx i).filter fun x => lo ≤ (x.2 : Int) ∧ (x.2 : Int) < hi).map (·.1) =
      (l.take (hi - i).toNat).drop (lo - i).toNat := by
  induction l generalizing i
  case nil => simp
  case cons x l hl =>
    have hrest := hl (i + 1)
    rw [List.zipIdx_cons, List.filter_cons]
    by_cases hhi : (i : Int) < hi
    · obtain ⟨n, hn⟩ : ∃ n, (hi - i).toNat = n + 1 := ⟨(hi - i).toNat - 1, by omega⟩
      have hn' : (hi - (i + 1 : Nat)).toNat = n := by omega
      rw [hn'] at hrest
      by_cases hlo : lo ≤ (i : Int)
      · have h0 : (lo - i).toNat = 0 := by omega
        have h0' : (lo - (i + 1 : Nat)).toNat = 0 := by omega
        rw [if_pos (by simpa using ⟨hlo, hhi⟩), List.map_cons, hrest, hn, h0, h0']
        rfl
      · have hd : (lo - i).toNat = (lo - (i + 1 : Nat)).toNat + 1 := by omega
        rw [if_neg (by simp; omega), hrest, hn, hd]
        rfl
    · have h0 : (hi - i).toNat = 0 := by omega
      have h0' : (hi - (i + 1 : Nat)).toNat = 0 := by omega
      rw [if_neg (by simp; omega), hrest, h0, h0']
      simp

theorem between_eq (lo hi : Int) (l : List α) : between lo hi l = (l.take (hi - 1).toNat).drop (lo - 1).toNat :=
  zipIdx_between lo hi l 1

end Positions

-- The page that was asked for, in integers without a bound.
def exactPage (users : List UserWithIdentities) (startIndex count : String) : Reply :=
  let start := max (atoiDefault startIndex 1).toInt 1
  let count := max (atoiDefault count (.ofNat users.length)).toInt 0
  let resources := (between start (start + count) users).map toResource
  .list {
    totalResults := .ofNat users.length
    startIndex := .ofInt start
    itemsPerPage := resources.length
    resources := resources }

-- The end of the page, counted from where it begins in the list, is within the range of int.
def Fits (users : List UserWithIdentities) (startIndex count : String) : Prop :=
  min (max (atoiDefault startIndex 1).toInt 1 - 1) users.length +
    max (atoiDefault count (.ofNat users.length)).toInt 0 < 2 ^ 63

instance (users : List UserWithIdentities) (startIndex count : String) : Decidable (Fits users startIndex count) :=
  inferInstanceAs <| Decidable <| _ < _

section Bounds

theorem toInt_startOf (startIndex : String) : (startOf startIndex).toInt = max (atoiDefault startIndex 1).toInt 1 := by
  simp only [startOf]
  split_ifs with h
  · rw [Int64.lt_iff_toInt_lt] at h
    simp only [Int64.toInt_one] at h ⊢
    omega
  · rw [Int64.lt_iff_toInt_lt] at h
    simp only [Int64.toInt_one] at h
    omega

theorem toInt_countOf (count : String) (total : Int64) :
    (countOf count total).toInt = max (atoiDefault count total).toInt 0 := by
  simp only [countOf]
  split_ifs with h
  · rw [Int64.lt_iff_toInt_lt] at h
    simp only [Int64.toInt_zero] at h ⊢
    omega
  · rw [Int64.lt_iff_toInt_lt] at h
    simp only [Int64.toInt_zero] at h
    omega

theorem toInt_add_cases {x y : Int64} (hx : 0 ≤ x.toInt) (hy : 0 ≤ y.toInt) :
    x.toInt + y.toInt < 2 ^ 63 ∧ (x + y).toInt = x.toInt + y.toInt ∨
    2 ^ 63 ≤ x.toInt + y.toInt ∧ (x + y).toInt < 0 := by
  have hx' := x.toInt_lt
  have hy' := y.toInt_lt
  rw [Int64.toInt_add, Int.bmod_def]
  omega

theorem toInt_min (x y : Int64) : (if y < x then y else x).toInt = min x.toInt y.toInt := by
  split_ifs with h <;> rw [Int64.lt_iff_toInt_lt] at h <;> omega

theorem toInt_lowOf (startIndex : String) (total : Int64) :
    (lowOf (startOf startIndex) total).toInt = min (max (atoiDefault startIndex 1).toInt 1 - 1) total.toInt := by
  have hpred : (startOf startIndex - 1).toInt = max (atoiDefault startIndex 1).toInt 1 - 1 := by
    have hlt := (startOf startIndex).toInt_lt
    rw [toInt_startOf] at hlt
    rw [Int64.toInt_sub, Int64.toInt_one, Int.bmod_def, toInt_startOf]
    omega
  rw [lowOf, toInt_min, hpred]

theorem toInt_highOf {lo count : Int64} (total : Int64) (hlo : 0 ≤ lo.toInt) (hcount : 0 ≤ count.toInt) :
    lo.toInt + count.toInt < 2 ^ 63 ∧ (highOf lo count total).toInt = min (lo.toInt + count.toInt) total.toInt ∨
    2 ^ 63 ≤ lo.toInt + count.toInt ∧ (highOf lo count total).toInt < 0 := by
  rw [highOf, toInt_min]
  obtain ⟨hfits, hadd⟩ | ⟨hover, hadd⟩ := toInt_add_cases hlo hcount
  · exact .inl ⟨hfits, by rw [hadd]⟩
  · exact .inr ⟨hover, by omega⟩

end Bounds

theorem slice_eq_between (hstart : 1 ≤ start) (hcount : 0 ≤ count)
    (hlo : lo.toInt = min (start - 1) l.length) (hhi : hi.toInt = min (lo.toInt + count) l.length) :
    slice l lo hi = some (between start (start + count) l) := by
  rw [slice, if_pos (by omega), between_eq]
  congr 1
  by_cases h : start - 1 ≤ l.length
  · have hlo' : lo.toInt.toNat = (start - 1).toNat := by omega
    have hhi' : hi.toInt.toNat = min (start + count - 1).toNat l.length := by omega
    rw [hlo', hhi', ← List.take_eq_take_min]
  · -- The page begins behind the end of the list.
    rw [List.drop_eq_nil_of_le (by rw [List.length_take]; omega), List.drop_eq_nil_of_le (by rw [List.length_take]; omega)]

theorem listPage_eq_iff (hlen : users.length < 2 ^ 63) (startIndex count : String) :
    listPage users startIndex count = exactPage users startIndex count ↔ Fits users startIndex count := by
  have htotal : (Int64.ofNat users.length).toInt = users.length := Int64.toInt_ofNat_of_lt hlen
  have hlo := toInt_lowOf startIndex (.ofNat users.length)
  have hcount := toInt_countOf count (.ofNat users.length)
  have hstart : 1 ≤ (startOf startIndex).toInt := by
    rw [toInt_startOf]
    omega
  unfold listPage exactPage Fits
  dsimp only
  rw [← toInt_startOf] at hlo ⊢
  generalize lowOf (startOf startIndex) (.ofNat users.length) = lo at hlo ⊢
  generalize countOf count (.ofNat users.length) = c at hcount ⊢
  rw [← hcount]
  rw [htotal] at hlo
  obtain ⟨hfits, hhi⟩ | ⟨hover, hhi⟩ := toInt_highOf (.ofNat users.length) (show 0 ≤ lo.toInt by omega)
    (show 0 ≤ c.toInt by omega)
  · rw [htotal] at hhi
    rw [slice_eq_between hstart (by omega) hlo hhi, Int64.ofInt_toInt]
    exact iff_of_true (by simp) (by omega)
  · -- The sum has wrapped around.
    rw [slice, if_neg (by omega)]
    exact iff_of_false (by simp) (by omega)

-- Without a filter, the answer is the page that was asked for as long as the bounds do not overflow.
theorem listUsers_exact_iff [Casing] (b : Faults.Backend Accounts UserError) (filter startIndex count : String)
    (hfault : b.fault = none) (hfilter : parseUserNameFilter filter = "") (hlen : b.state.users.length < 2 ^ 63) :
    (listUsers filter startIndex count b).1 = exactPage b.state.listUsers startIndex count ↔
      Fits b.state.listUsers startIndex count := by
  have hlen' : b.state.listUsers.length < 2 ^ 63 := by simpa [Accounts.listUsers] using hlen
  rw [← listPage_eq_iff hlen']
  simp only [listUsers, hfilter, ne_eq, not_true, if_false]
  rw [Faults.run_bind, Faults.ask_of_none hfault]
  rfl

section Samples

def sampleUsers : Accounts where
  customers := []
  users := [{ id := 1, email := "ada@example.com", role := .admin }, { id := 2, email := "bob@example.com", role := .viewer }]

theorem second_user_listed :
    letI := Casing.ascii
    (listUsers "" "2" "1" { state := sampleUsers }).1 = exactPage sampleUsers.listUsers "2" "1" := by
  let := Casing.ascii
  exact (listUsers_exact_iff { state := sampleUsers } "" "2" "1" rfl (by decide) (by decide)).mpr (by decide)

-- The largest count, from the second user on.
theorem largest_count_panics :
    letI := Casing.ascii
    (listUsers "" "2" "9223372036854775807" { state := sampleUsers }).1 = .panicked ∧
      (listUsers "" "2" "9223372036854775807" { state := sampleUsers }).1 ≠
        exactPage sampleUsers.listUsers "2" "9223372036854775807" := by
  decide +kernel

end Samples

end Scim
