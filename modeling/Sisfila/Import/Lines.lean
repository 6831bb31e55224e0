import Sisfila.Model.Importer

namespace Sisfila

namespace ImporterController

/-! One line of the import. -/

/-- A scan stops where its class ends. -/
theorem dropWhile_of_head {p : Char → Bool} {l : List Char} (h : ∀ c ∈ l.head?,p c=false) :
    l.dropWhile p=l := by
  cases l with
  | nil => rfl
  | cons c l => exact List.dropWhile_cons_of_neg (by simp [h c rfl])

/-- White space around a text that neither begins nor ends with any. -/
theorem strip_eq {w₁ l w₂ : List Char} (h₁ : ∀ c ∈ w₁,branco c=true)
    (h₂ : ∀ c ∈ w₂,branco c=true) (hi : ∀ c ∈ l.head?,branco c=false)
    (hf : ∀ c ∈ l.getLast?,branco c=false) : strip (w₁++l++w₂)=l := by
  have hleft : (w₁++(l++w₂)).dropWhile branco=(l++w₂).dropWhile branco :=
    List.dropWhile_append_of_pos h₁
  unfold strip
  rw [List.append_assoc,hleft]
  cases l with
  | nil =>
    have hw : (w₂++[]).dropWhile branco=[].dropWhile branco := List.dropWhile_append_of_pos h₂
    rw [List.append_nil] at hw
    rw [List.nil_append,hw]
    rfl
  | cons c l =>
    have hstop : (c::l++w₂).dropWhile branco=c::l++w₂ :=
      dropWhile_of_head (by simpa using hi)
    have hright : (w₂.reverse++(c::l).reverse).dropWhile branco=
        (c::l).reverse.dropWhile branco :=
      List.dropWhile_append_of_pos (by simpa using h₂)
    have hlast : (c::l).reverse.dropWhile branco=(c::l).reverse :=
      dropWhile_of_head (by rw [List.head?_reverse]; exact hf)
    rw [hstop,List.reverse_append,hright,hlast,List.reverse_reverse]

/-- What may stand between the matricula and the nome. -/
inductive Separador : List Char → Prop
  /-- a tab, a comma or a semicolon, and spaces -/
  | sinal (c : Char) (hc : c= '\t' ∨ c= ',' ∨ c= ';') (k : Nat) :
      Separador (c::List.replicate k ' ')
  | espacos (k : Nat) : Separador (List.replicate (k+1) ' ')

namespace Separador

variable {s : List Char}

theorem ne_nil (h : Separador s) : s≠[] := by
  cases h <;> simp

theorem head (h : Separador s) : ∀ c ∈ s.head?,c.isDigit=false := by
  intro c hc
  cases h with
  | sinal a ha k =>
    obtain rfl := Option.some.inj hc
    rcases ha with rfl | rfl | rfl <;> rfl
  | espacos k =>
    obtain rfl := Option.some.inj hc
    rfl

/-- The regular expression takes the sign, or all of the spaces; a strip takes the rest. -/
theorem separador_append (h : Separador s) {n : List Char} (hn : ∀ c ∈ n.head?,branco c=false) :
    ∃ k,separador (s++n)=List.replicate k ' '++n := by
  cases h with
  | sinal c hc k =>
    refine ⟨k,?_⟩
    rcases hc with rfl | rfl | rfl <;> rfl
  | espacos k =>
    refine ⟨0,?_⟩
    have hstop : n.dropWhile (· == ' ')=n := by
      refine dropWhile_of_head ?_
      intro c hc
      have hb := hn c hc
      rw [beq_eq_false_iff_ne]
      rintro rfl
      cases hb
    change (List.replicate (k+1) ' '++n).dropWhile (· == ' ')=n
    rw [List.dropWhile_append_of_pos (by simp),hstop]

/-- At the end of a line the spaces of a separator, and a tab, are stripped with the line. -/
theorem divide (h : Separador s) : ∃ s₁ s₂,s=s₁++s₂ ∧ (∀ c ∈ s₂,branco c=true) ∧
    (∀ c ∈ s₁,branco c=false ∧ c.isDigit=false) ∧ separador s₁=[] := by
  have hblank : ∀ k,∀ c ∈ List.replicate k ' ',branco c=true := by
    intro k c hc
    rw [List.eq_of_mem_replicate hc]
    rfl
  cases h with
  | sinal c hc k =>
    rcases hc with rfl | rfl | rfl
    · exact ⟨[],_,rfl,List.forall_mem_cons.mpr ⟨rfl,hblank k⟩,by simp,rfl⟩
    · exact ⟨[','],_,rfl,hblank k,List.forall_mem_singleton.mpr ⟨rfl,rfl⟩,rfl⟩
    · exact ⟨[';'],_,rfl,hblank k,List.forall_mem_singleton.mpr ⟨rfl,rfl⟩,rfl⟩
  | espacos k => exact ⟨[],_,rfl,hblank (k+1),by simp,rfl⟩

end Separador

/-- The digits go as far as they can, and what follows has no second choice. -/
theorem leLinha_append {m r : List Char} (hm : m≠[]) (hd : ∀ c ∈ m,c.isDigit=true)
    (hr : ∀ c ∈ r.head?,c.isDigit=false) :
    leLinha (m++r)=some (String.ofList m,String.ofList (strip (separador r))) := by
  have hstop : r.takeWhile Char.isDigit=[] := by
    cases r with
    | nil => rfl
    | cons c r => exact List.takeWhile_cons_of_neg (by simp [hr c rfl])
  have htake : (m++r).takeWhile Char.isDigit=m := by
    rw [List.takeWhile_append_of_pos hd,hstop,List.append_nil]
  have hdrop : (m++r).dropWhile Char.isDigit=r := by
    rw [List.dropWhile_append_of_pos hd,dropWhile_of_head hr]
  unfold leLinha
  rw [htake,hdrop]
  cases m with
  | nil => exact absurd rfl hm
  | cons c m => rfl

theorem not_branco_of_isDigit {c : Char} (h : c.isDigit=true) : branco c=false := by
  have hc : 48≤c.toNat := by
    have h48 : (48 : UInt32)≤c.val := by
      simp only [Char.isDigit,Bool.and_eq_true,decide_eq_true_eq] at h
      exact h.1
    exact UInt32.le_iff_toNat_le.mp h48
  rw [Bool.eq_false_iff]
  intro hb
  simp only [branco,Bool.or_eq_true,Bool.and_eq_true,decide_eq_true_eq,beq_iff_eq] at hb
  rcases hb with (rfl | rfl) | ⟨-,hle⟩
  · exact absurd hc (by decide)
  · exact absurd hc (by decide)
  · have h13 : c.toNat≤13 := UInt32.le_iff_toNat_le.mp hle
    omega

/-- A line of the format, with quotes and outer white space. -/
theorem leLinha_limpa {m s n w₁ w₂ l : List Char} (hm : m≠[]) (hd : ∀ c ∈ m,c.isDigit=true)
    (hs : Separador s) (hi : ∀ c ∈ n.head?,branco c=false)
    (hf : ∀ c ∈ n.getLast?,branco c=false) (h₁ : ∀ c ∈ w₁,branco c=true)
    (h₂ : ∀ c ∈ w₂,branco c=true) (hl : l.filter (· != '"')=w₁++(m++s++n)++w₂) :
    leLinha (limpa l)=some (String.ofList m,String.ofList n) := by
  have hdigit : ∀ c ∈ m,branco c=false := fun c hc => not_branco_of_isDigit (hd c hc)
  have hhead : ∀ r : List Char,∀ c ∈ (m++r).head?,branco c=false := by
    intro r c hc
    rw [List.head?_append_of_ne_nil _ hm] at hc
    exact hdigit c (List.mem_of_mem_head? hc)
  unfold limpa
  rw [hl]
  by_cases hn : n=[]
  · -- the strip of the line reaches into the separator
    subst hn
    obtain ⟨s₁,s₂,rfl,hs₂,hs₁,hsep⟩ := hs.divide
    have hsplit : w₁++(m++(s₁++s₂)++[])++w₂=w₁++(m++s₁)++(s₂++w₂) := by simp
    have hlast : ∀ c ∈ (m++s₁).getLast?,branco c=false := by
      intro c hc
      rcases List.mem_append.mp (List.mem_of_getLast? hc) with hc | hc
      · exact hdigit c hc
      · exact (hs₁ c hc).1
    have hwhite : ∀ c ∈ s₂++w₂,branco c=true := List.forall_mem_append.mpr ⟨hs₂,h₂⟩
    rw [hsplit,strip_eq h₁ hwhite (hhead s₁) hlast,
      leLinha_append hm hd (fun c hc => (hs₁ c (List.mem_of_mem_head? hc)).2),hsep]
    rfl
  · have hlast : ∀ c ∈ (m++s++n).getLast?,branco c=false := by
      rw [List.getLast?_append_of_ne_nil _ hn]
      exact hf
    have hfirst := hhead (s++n)
    rw [← List.append_assoc] at hfirst
    obtain ⟨k,hk⟩ := hs.separador_append hi
    have hsep : ∀ c ∈ (s++n).head?,c.isDigit=false := by
      rw [List.head?_append_of_ne_nil _ hs.ne_nil]
      exact hs.head
    have hblank : ∀ c ∈ List.replicate k ' ',branco c=true := by
      intro c hc
      rw [List.eq_of_mem_replicate hc]
      rfl
    have hname : strip (List.replicate k ' '++n++[])=n := strip_eq hblank (by simp) hi hf
    rw [List.append_nil] at hname
    rw [strip_eq h₁ h₂ hfirst hlast,List.append_assoc,leLinha_append hm hd hsep,hk,hname]

theorem leLinha_eq_none (l : List Char) :
    leLinha l=none ↔ ∀ c ∈ l.head?,c.isDigit=false := by
  unfold leLinha
  cases l with
  | nil => simp
  | cons c l => cases hc : c.isDigit <;> simp [hc]

/-- What the loop prints of a line it cannot read. -/
def invalida (x : String × Nat) (bruta : List Char) : String × Nat :=
  (x.1++"Linha inválida: \""++String.ofList (limpa bruta)++"\"\n",x.2)

/-- The parser reads its format and nothing else is refused: a line of digits, a separator and a
name, with quotes anywhere and white space around it, gives that matricula and that name; and a
line is reported exactly if something other than a digit begins what is left of it. -/
theorem leLinha_formato : (∀ m s n w₁ w₂ l : List Char,m≠[] → (∀ c ∈ m,c.isDigit=true) →
      Separador s → (∀ c ∈ n.head?,branco c=false) → (∀ c ∈ n.getLast?,branco c=false) →
      (∀ c ∈ w₁,branco c=true) → (∀ c ∈ w₂,branco c=true) →
      l.filter (· != '"')=w₁++(m++s++n)++w₂ →
      leLinha (limpa l)=some (String.ofList m,String.ofList n)) ∧
    ∀ (grupo : Option Grupo) (colegiado : Option Colegiado) (x : String × Nat) (l : List Char),
      importaLinha grupo colegiado x l=pure (invalida x l) ↔
        limpa l≠[] ∧ ∀ c ∈ (limpa l).head?,c.isDigit=false := by
  constructor
  · intro m s n w₁ w₂ l hm hd hs hi hf h₁ h₂ hl
    exact leLinha_limpa hm hd hs hi hf h₁ h₂ hl
  · intro grupo colegiado x l
    unfold importaLinha
    rw [← leLinha_eq_none]
    by_cases he : limpa l=[]
    · -- a skipped line prints nothing
      rw [if_pos he]
      refine iff_of_false ?_ (fun h => h.1 he)
      intro h
      have hx : x=invalida x l := Prog.ret.inj h
      have hlen := congrArg (fun y => y.1.length) hx
      simp only [invalida,String.length_append] at hlen
      have hend : "\"\n".length=2 := rfl
      omega
    · rw [if_neg he]
      cases hp : leLinha (limpa l) with
      | none => exact iff_of_true rfl ⟨he,rfl⟩
      | some r =>
        refine iff_of_false ?_ (fun h => by cases h.2)
        intro h
        cases h

/-- A tab, quotes and a Windows line end. -/
theorem leLinha_formato_cenario :
    leLinha (limpa "\"1234\"\t \"Fulano, de Tal\"\r".toList)=some ("1234","Fulano, de Tal") :=
  leLinha_formato.1 "1234".toList "\t ".toList "Fulano, de Tal".toList [] ['\r'] _
    (by decide +kernel) (List.all_eq_true.mp rfl) (.sinal '\t' (.inl rfl) 1)
    (by intro c hc; cases (hc : some 'F'=some c); rfl)
    (by intro c hc; cases (hc : some 'l'=some c); rfl) (by simp)
    (List.all_eq_true.mp rfl) (by decide +kernel)

end ImporterController

end Sisfila
