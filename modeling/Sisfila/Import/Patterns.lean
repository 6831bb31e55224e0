import Mathlib.Data.List.TakeWhile
import Sisfila.Import.Lines
import Sisfila.Import.Scores

namespace Sisfila

open Regex

namespace ImporterController

/-! The expression of the import, against the scan that stands for it. -/

/-- `/^(?<matricula>\d+)(\t|,|;| *)(?<nome>.*?)$/`; beside named groups the others capture nothing. -/
def padrao : Regex :=
  .seq .bol (.seq (.group 1 (.some1 Char.isDigit))
    (.seq (.alt (.word ['\t']) (.alt (.word [',']) (.alt (.word [';']) (.many (· == ' ') true))))
      (.seq (.group 2 (.many Script.Escalonamento.ponto false)) .eol)))

theorem run_word_singleton (a : Char) (b l : List Char) (x : Char) :
    (word [a]).run ⟨b,x::l⟩=if x=a then [(⟨x::b,l⟩,[])] else [] := by
  by_cases h : x=a
  · simp [word,run,h]
  · simp [word,run,h]

/-- The separator tried first leaves what `separador` leaves. -/
theorem first_separador (c : Cursor Char) : ∃ b xs,
    (alt (word ['\t']) (alt (word [',']) (alt (word [';']) (many (· == ' ') true)))).run c=
      (⟨b,separador c.ahead⟩,[])::xs := by
  obtain ⟨b,l⟩ := c
  have hmany := first_many (· == ' ') ⟨b,l⟩
  cases l with
  | nil => exact ⟨b,[],rfl⟩
  | cons x l =>
    by_cases h₁ : x= '\t'
    · subst h₁
      exact ⟨_,_,rfl⟩
    by_cases h₂ : x= ','
    · subst h₂
      exact ⟨_,_,rfl⟩
    by_cases h₃ : x= ';'
    · subst h₃
      exact ⟨_,_,rfl⟩
    have hs : separador (x::l)=(x::l).dropWhile (· == ' ') := by
      rw [separador]
      · rintro _ ⟨rfl,-⟩
        exact h₁ rfl
      · rintro _ ⟨rfl,-⟩
        exact h₂ rfl
      · rintro _ ⟨rfl,-⟩
        exact h₃ rfl
    obtain ⟨xs,hxs⟩ := hmany
    rw [run,run,run,run_word_singleton,run_word_singleton,run_word_singleton,if_neg h₁,if_neg h₂,
      if_neg h₃,hxs]
    exact ⟨_,xs,by rw [hs]; rfl⟩

/-- The digits tried first are all of them. -/
theorem first_digitos {l : List Char} (h : l.takeWhile Char.isDigit≠[]) : ∃ b xs,
    (group 1 (some1 Char.isDigit)).run ⟨[],l⟩=
      (⟨b,l.dropWhile Char.isDigit⟩,[(1,l.takeWhile Char.isDigit)])::xs := by
  obtain ⟨xs,hxs⟩ := first_some1 h []
  have hover : Over (l.takeWhile Char.isDigit) ⟨[],l⟩
      ⟨(l.takeWhile Char.isDigit).reverse++[],l.dropWhile Char.isDigit⟩ :=
    ⟨List.takeWhile_append_dropWhile.symm,rfl⟩
  rw [run,hxs,List.map_cons,hover.between]
  exact ⟨_,_,rfl⟩

theorem mem_separador {l : List Char} {c : Char} (h : c ∈ separador l) : c ∈ l := by
  unfold separador at h
  split at h
  · exact List.mem_cons_of_mem _ h
  · exact List.mem_cons_of_mem _ h
  · exact List.mem_cons_of_mem _ h
  · exact (List.dropWhile_sublist _).subset h

theorem search_padrao {l : List Char} (hl : '\n' ∉ l) : padrao.search l=
    if l.takeWhile Char.isDigit=[] then none
    else some [(1,l.takeWhile Char.isDigit),(2,separador (l.dropWhile Char.isDigit))] := by
  rw [padrao,search_bol (fun h => hl (List.dropLast_subset l h))]
  by_cases h : l.takeWhile Char.isDigit=[]
  · rw [if_pos h]
    have hone : (one Char.isDigit).run ⟨[],l⟩=[] := by
      cases l with
      | nil => rfl
      | cons x l =>
        cases hx : x.isDigit with
        | false => simp [run,hx]
        | true => simp [hx] at h
    rw [seq_eq_nil]
    · rfl
    · rw [run,some1,seq_eq_nil hone,List.map_nil]
  · rw [if_neg h]
    obtain ⟨b,xs,hd⟩ := first_digitos h
    obtain ⟨b',ys,hs⟩ := first_separador ⟨b,l.dropWhile Char.isDigit⟩
    have hnome := @first_lazy_eol ⟨b',separador (l.dropWhile Char.isDigit)⟩
      Script.Escalonamento.ponto (fun c hc => by
        have hc : c≠ '\n' := by
          rintro rfl
          exact hl ((List.dropWhile_sublist _).subset (mem_separador hc))
        exact ⟨by simp [Script.Escalonamento.ponto,hc],hc⟩) 2
    rw [first_seq hd (first_seq hs hnome)]
    rfl

theorem mem_of_mem_strip {l : List Char} {c : Char} (h : c ∈ strip l) : c ∈ l := by
  unfold strip at h
  rw [List.mem_reverse] at h
  have hr := (List.dropWhile_sublist _).subset h
  rw [List.mem_reverse] at hr
  exact (List.dropWhile_sublist _).subset hr

theorem notMem_of_mem_splitOn {a : Char} {cs l : List Char} (h : l ∈ cs.splitOn a) : a ∉ l := by
  induction cs generalizing l with
  | nil =>
    rw [List.splitOn_nil,List.mem_singleton] at h
    simp [h]
  | cons x cs ih =>
    rw [List.splitOn_cons_eq_if_modifyHead] at h
    split_ifs at h with hx
    · rcases List.mem_cons.mp h with rfl | h
      · exact List.not_mem_nil
      · exact ih h
    · cases hs : cs.splitOn a with
      | nil =>
        rw [hs] at h
        cases h
      | cons k ks =>
        rw [hs] at h ih
        rcases List.mem_cons.mp h with rfl | h
        · rw [List.mem_cons,not_or]
          exact ⟨fun he => hx (by simp [he]),ih List.mem_cons_self⟩
        · exact ih (List.mem_cons_of_mem _ h)

/-- On a line of a text the scan reads what the expression reads. -/
theorem leLinha_padrao {l : List Char} (hl : '\n' ∉ l) :
    leLinha l=(padrao.search l).map (fun g =>
      (String.ofList (strip (text g 1)),String.ofList (strip (text g 2)))) := by
  rw [search_padrao hl]
  unfold leLinha
  by_cases h : l.takeWhile Char.isDigit=[]
  · simp [h]
  · have hd : strip (l.takeWhile Char.isDigit)=l.takeWhile Char.isDigit := by
      have hb : ∀ c ∈ l.takeWhile Char.isDigit,branco c=false :=
        fun c hc => not_branco_of_isDigit (List.mem_takeWhile_imp hc)
      have he : strip ([]++l.takeWhile Char.isDigit++[])=l.takeWhile Char.isDigit :=
        strip_eq (by simp) (by simp) (fun c hc => hb c (List.mem_of_mem_head? hc))
          (fun c hc => hb c (List.mem_of_mem_getLast? hc))
      rwa [List.append_nil,List.nil_append] at he
    rw [if_neg h,Option.map_some]
    change _=some (String.ofList (strip (l.takeWhile Char.isDigit)),_)
    rw [hd]
    cases hm : l.takeWhile Char.isDigit with
    | nil => exact absurd hm h
    | cons c m => rfl

/-- The line break `readlines` keeps goes with the outer white space. -/
theorem limpa_quebra (l : List Char) : limpa (l++['\n'])=limpa l := by
  have hf : (l++['\n']).filter (· != '"')=l.filter (· != '"')++['\n'] := by simp
  unfold limpa strip
  rw [hf,List.dropWhile_append]
  split_ifs with h
  · rw [List.isEmpty_iff] at h
    rw [h]
    rfl
  · rw [List.reverse_append]
    rfl

/-- The loop body as the source writes it. -/
def importaLinhaPadrao (grupo : Option Grupo) (colegiado : Option Colegiado) (x : String × Nat)
    (line : List Char) : Req (String × Nat) :=
  if limpa line=[] then pure x
  else match padrao.search (limpa line) with
    | some g => do
      let saida ← importaAluno grupo colegiado (String.ofList (strip (text g 1)))
        (String.ofList (strip (text g 2)))
      pure (x.1++saida,x.2+1)
    | none => pure (x.1++"Linha inválida: \""++String.ofList (limpa line)++"\"\n",x.2)

/-- The import as the source writes it: each line with its line break, read by the expression. -/
def importaEscalonamentoPadrao (contents : String) (grupo : Option Grupo)
    (colegiado : Option Colegiado) : Req String := do
  let saida ← removeAlunos grupo
  let (saida,lidos) ← transacao ((Script.comQuebra (linhas contents)).foldlM
    (importaLinhaPadrao grupo colegiado) (saida++"Importando alunos:\n",0))
  pure (saida++"Lidos: "++toString lidos++".\n")

theorem importaLinhaPadrao_eq {l : List Char} (hl : '\n' ∉ l) (grupo : Option Grupo)
    (colegiado : Option Colegiado) (x : String × Nat) :
    importaLinhaPadrao grupo colegiado x l=importaLinha grupo colegiado x l := by
  have hn : '\n' ∉ limpa l := fun h => hl (List.mem_filter.mp (mem_of_mem_strip h)).1
  unfold importaLinhaPadrao importaLinha
  rw [leLinha_padrao hn]
  cases padrao.search (limpa l) with
  | none => rfl
  | some g => rfl

theorem importaLinhaPadrao_quebra (grupo : Option Grupo) (colegiado : Option Colegiado)
    (x : String × Nat) (l : List Char) :
    importaLinhaPadrao grupo colegiado x (l++['\n'])=importaLinhaPadrao grupo colegiado x l := by
  unfold importaLinhaPadrao
  rw [limpa_quebra]

/-- One way of reading the lines and the other make the same loop. -/
theorem foldlM_importaLinhaPadrao (grupo : Option Grupo) (colegiado : Option Colegiado)
    (x : String × Nat) {ls : List (List Char)} (hls : ∀ l ∈ ls,'\n' ∉ l) :
    (Script.comQuebra ls).foldlM (importaLinhaPadrao grupo colegiado) x=
      ls.foldlM (importaLinha grupo colegiado) x := by
  induction ls generalizing x with
  | nil => rfl
  | cons l ls ih =>
    have hl := importaLinhaPadrao_eq (hls l List.mem_cons_self) grupo colegiado x
    cases ls with
    | nil =>
      by_cases h : l=[]
      · subst h
        rfl
      · rw [Script.comQuebra,if_neg h,List.foldlM_cons,List.foldlM_cons,hl]
        rfl
    | cons k ks =>
      rw [Script.comQuebra,List.foldlM_cons,List.foldlM_cons,importaLinhaPadrao_quebra,hl]
      congr 1
      funext y
      exact ih y (fun m hm => hls m (List.mem_cons_of_mem _ hm))

/-- The import of the model is, statement by statement, the import the source writes with its
regular expression. -/
theorem importa_padrao (contents : String) (grupo : Option Grupo)
    (colegiado : Option Colegiado) : importaEscalonamentoPadrao contents grupo colegiado=
      importaEscalonamento contents grupo colegiado := by
  have hls : ∀ l ∈ linhas contents,'\n' ∉ l := fun l hl => notMem_of_mem_splitOn hl
  unfold importaEscalonamentoPadrao importaEscalonamento
  congr 1
  funext saida
  rw [foldlM_importaLinhaPadrao grupo colegiado _ hls]

end ImporterController

namespace Script

namespace Escalonamento

open ImporterController (linhas notMem_of_mem_splitOn)

/-- A line of the report: a number, whether the pre-enrolment was made, the score, anything, the
matricula, and a nome before a dash with a blank after it. -/
def Declarada (line : List Char) : Prop :=
  ∃ i o s x m n r : List Char,(o="Sim".toList ∨ o="Não".toList) ∧
    (i≠[] ∧ s≠[] ∧ m≠[]) ∧ (∀ c ∈ i++s++m,c.isDigit=true) ∧ '\n' ∉ x++n ∧
    line=i++o++[' ']++s++[' ']++x++[' ']++m++" - ".toList++n++"- ".toList++r

/-- The blank in front of the dash can be left to the nome, so the expression has no other lines. -/
theorem search_padrao_isSome {line : List Char} (hl : '\n' ∉ line.dropLast) :
    (padrao.search line).isSome ↔ Declarada line := by
  have hponto : ∀ w : List Char,(∀ c ∈ w,ponto c=true) ↔ '\n' ∉ w := by
    intro w
    simp only [ponto,bne_iff_ne]
    exact ⟨fun h hw => h _ hw rfl,fun h c hc he => h (he ▸ hc)⟩
  rw [padrao,search_bol_isSome hl rfl]
  simp only [Regex.Lang,lang_word,lang_some1,hponto]
  constructor
  · rintro ⟨_,⟨i,_,⟨hi,hid⟩,⟨o,_,ho,⟨_,_,rfl,⟨s,_,⟨hs,hsd⟩,⟨_,_,rfl,⟨x,_,hx,⟨_,_,rfl,⟨m,_,⟨hm,hmd⟩,
      ⟨_,_,rfl,⟨n,_,hn,⟨b,_,hb,rfl,rfl⟩,rfl⟩,rfl⟩,rfl⟩,rfl⟩,rfl⟩,rfl⟩,rfl⟩,rfl⟩,rfl⟩,rfl⟩,r,rfl⟩
    have hd : ∀ c ∈ i++s++m,c.isDigit=true := by
      simp only [List.forall_mem_append]
      exact ⟨⟨hid,hsd⟩,hmd⟩
    have hq : '\n' ∉ x++(n++b) := by
      rcases hb with rfl | rfl
      · simp [hx,hn]
      · simp [hx,hn]
    exact ⟨i,o,s,x,m,n++b,r,ho,⟨hi,hs,hm⟩,hd,hq,by simp⟩
  · rintro ⟨i,o,s,x,m,n,r,ho,⟨hi,hs,hm⟩,hd,hq,rfl⟩
    simp only [List.forall_mem_append] at hd
    rw [List.mem_append,not_or] at hq
    refine ⟨_,⟨i,_,⟨hi,hd.1.1⟩,⟨o,_,ho,⟨_,_,rfl,⟨s,_,⟨hs,hd.1.2⟩,⟨_,_,rfl,⟨x,_,hq.1,⟨_,_,rfl,
      ⟨m,_,⟨hm,hd.2⟩,⟨_,_,rfl,⟨n,_,hq.2,⟨[],_,.inr rfl,rfl,rfl⟩,rfl⟩,rfl⟩,rfl⟩,rfl⟩,rfl⟩,rfl⟩,rfl⟩,
      rfl⟩,rfl⟩,rfl⟩,r,?_⟩
    simp

theorem dropLast_comQuebra {ls : List (List Char)} (hls : ∀ l ∈ ls,'\n' ∉ l) :
    ∀ line ∈ comQuebra ls,'\n' ∉ line.dropLast := by
  induction ls with
  | nil => exact fun _ h => absurd h List.not_mem_nil
  | cons l ls ih =>
    have hl := hls l List.mem_cons_self
    cases ls with
    | nil =>
      intro line h
      rw [comQuebra] at h
      split_ifs at h
      · cases h
      · rw [List.mem_singleton] at h
        rw [h]
        exact fun hq => hl (List.dropLast_subset l hq)
    | cons k ks =>
      intro line h
      rcases List.mem_cons.mp h with rfl | h
      · rwa [List.dropLast_concat]
      · exact ih (fun m hm => hls m (List.mem_cons_of_mem _ hm)) line h

/-- The aluno a line declares has no colegiado and is refused. -/
theorem exec_createAluno (p : AlunoParams) (s : World) :
    ∃ log,(createAluno p).exec s=⟨log,.error .recordInvalid,s⟩ := by
  have hv : s.db.alunoValido (p.novo s.db.alunos.next)=false := Bool.false_and _
  exact ⟨_,by simp [createAluno,Prog.exec_bind,hv,Outcome.andThen]; rfl⟩

/-- The loop goes on until the first declared line, and ends there. -/
theorem exec_leAluno (s : World) (n : Nat) {ls : List (List Char)}
    (hls : ∀ line ∈ ls,'\n' ∉ line.dropLast) :
    (∀ line ∈ ls,¬Declarada line) ∧ (ls.foldlM leAluno n).exec s=⟨[],.ok n,s⟩ ∨
      (∃ line ∈ ls,Declarada line) ∧
        ∃ log,(ls.foldlM leAluno n).exec s=⟨log,.error .recordInvalid,s⟩ := by
  induction ls with
  | nil => exact Or.inl ⟨fun _ h => absurd h List.not_mem_nil,rfl⟩
  | cons line ls ih =>
    have hd := search_padrao_isSome (hls line List.mem_cons_self)
    have ih := ih (fun l hl => hls l (List.mem_cons_of_mem _ hl))
    rw [List.foldlM_cons]
    cases hg : padrao.search line with
    | none =>
      rw [hg] at hd
      have hno : ¬Declarada line := fun h => by simpa using hd.mpr h
      have hpure : (leAluno n line >>= fun m => ls.foldlM leAluno m)=ls.foldlM leAluno n := by
        rw [leAluno,hg]
        rfl
      rw [hpure]
      rcases ih with ⟨hnone,he⟩ | ⟨⟨l,hl,hld⟩,he⟩
      · exact Or.inl ⟨List.forall_mem_cons.mpr ⟨hno,hnone⟩,he⟩
      · exact Or.inr ⟨⟨l,List.mem_cons_of_mem _ hl,hld⟩,he⟩
    | some g =>
      rw [hg] at hd
      refine Or.inr ⟨⟨line,List.mem_cons_self,hd.mp rfl⟩,?_⟩
      simp only [leAluno,hg]
      obtain ⟨log,hc⟩ := exec_createAluno
        { score := some (paraInteiro (Regex.text g 1)),
          matricula := some (some (String.ofList (ImporterController.strip (Regex.text g 2)))),
          nome := some (some (String.ofList (ImporterController.strip (Regex.text g 3)))) } s
      rw [Prog.exec_bind,Prog.exec_bind,hc]
      exact ⟨_,rfl⟩

/-- The script imports nobody: it raises as soon as one line has the form it is written for, and
says that it has read none otherwise. -/
theorem escalonamento_nenhum (s : World) (contents : String) :
    ((importaEscalonamento contents).exec s).state=s ∧
      ((∀ line ∈ comQuebra (linhas contents),¬Declarada line) ∧
          ((importaEscalonamento contents).exec s).result=.ok "Lidos: 0.\n" ∨
        (∃ line ∈ comQuebra (linhas contents),Declarada line) ∧
          ((importaEscalonamento contents).exec s).result=.error .recordInvalid) := by
  have hls := dropLast_comQuebra (fun l (hl : l ∈ linhas contents) => notMem_of_mem_splitOn hl)
  unfold importaEscalonamento transacao
  rcases exec_leAluno s 0 hls with ⟨hno,he⟩ | ⟨hsome,log,he⟩
  · simp only [Prog.exec,Prog.exec_bind,he]
    exact ⟨rfl,Or.inl ⟨hno,rfl⟩⟩
  · simp only [Prog.exec,Prog.exec_bind,he]
    exact ⟨rfl,Or.inr ⟨hsome,rfl⟩⟩

end Escalonamento

end Script

end Sisfila
