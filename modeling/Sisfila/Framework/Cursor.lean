import Mathlib.Data.List.Basic

namespace Sisfila

/-- A list with a place in it: what lies behind, nearest first, and what lies ahead. -/
@[ext] structure Cursor (α : Type) where
  behind : List α
  ahead : List α

namespace Cursor

variable {α : Type}

/-- The last one passed. -/
def here (c : Cursor α) : Option α := c.behind.head?

def next : Cursor α → Cursor α
  | ⟨b,a::l⟩ => ⟨a::b,l⟩
  | c => c

def back : Cursor α → Cursor α
  | ⟨a::b,l⟩ => ⟨b,a::l⟩
  | c => c

/-- Somebody joins at the far end. -/
def push (c : Cursor α) (a : α) : Cursor α := ⟨c.behind,c.ahead++[a]⟩

/-- The place after the first `n` elements of `l`. -/
def place (l : List α) (n : Nat) : Cursor α := ⟨(l.take n).reverse,l.drop n⟩

variable {l : List α} {n : Nat}

theorem ahead_place_eq_nil (h : n≤l.length) : (place l n).ahead=[] ↔ n=l.length := by
  rw [place,List.drop_eq_nil_iff]
  omega

/-- One more element behind. -/
theorem place_succ (h : n<l.length) :
    place l (n+1)=⟨l[n]::(l.take n).reverse,l.drop (n+1)⟩ := by
  rw [place,List.take_succ_eq_append_getElem h,List.reverse_append]
  rfl

/-- The same element ahead. -/
theorem place_of_lt (h : n<l.length) :
    place l n=⟨(l.take n).reverse,l[n]::l.drop (n+1)⟩ := by
  rw [place,List.drop_eq_getElem_cons h]

theorem next_place (h : n<l.length) : (place l n).next=place l (n+1) := by
  rw [place_of_lt h,place_succ h,next]

theorem back_place (h : n<l.length) : (place l (n+1)).back=place l n := by
  rw [place_of_lt h,place_succ h,back]

theorem push_place (h : n≤l.length) (a : α) : (place l n).push a=place (l++[a]) n := by
  simp [place,push,List.take_append_of_le_length h,List.drop_append_of_le_length h]

theorem here_place (h : n<l.length) : (place l (n+1)).here=l[n]? := by
  rw [place_succ h,here,List.head?_cons,List.getElem?_eq_getElem h]

theorem back_next {c : Cursor α} (h : c.ahead≠[]) : c.next.back=c := by
  obtain ⟨b,l⟩ := c
  cases l with
  | nil => exact absurd rfl h
  | cons a l => rfl

end Cursor

end Sisfila
