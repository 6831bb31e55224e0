import Mathlib.Data.Rat.Floor
import Sisfila.Import.Guarantees
import Sisfila.Model.Scripts

namespace Sisfila

namespace Script

open ImporterController (strip linhas)

/-! One line and the whole file, as functions of the tables. -/

/-- Without a colegiado no aluno is saved. -/
theorem ok_createAluno (p : AlunoParams) (s : World) : ((createAluno p).exec s).ok=false := by
  have hv : s.db.alunoValido (p.novo s.db.alunos.next)=false := Bool.false_and _
  simp [createAluno,Prog.exec_bind,hv,Outcome.ok]

theorem writes_leAlunoCR (lidos : Nat) (line : List Char) :
    Writes (leAlunoCR lidos line) (fun _ => none) := by
  intro s
  unfold leAlunoCR
  rcases campos line with _ | ⟨matricula,_ | ⟨nome,_ | ⟨cr,resto⟩⟩⟩
  · exact ⟨rfl,nofun⟩
  · exact ⟨rfl,nofun⟩
  · exact ⟨rfl,nofun⟩
  · exact WritesAt.bind_error _ (ok_createAluno _ s)

theorem foldlM_none (d : Db) (ls : List (List Char)) :
    ls.foldlM (fun (_ : Db) (_ : List Char) => (none : Option Db)) d=
      if ls=[] then some d else none := by
  cases ls with
  | nil => rfl
  | cons l ls => rfl

theorem writes_importaEscalonamento (contents : String) : Writes (importaEscalonamento contents)
    (fun d => if comQuebra (linhas contents)=[] then some d else none) := by
  refine Writes.transacao ?_
  have hw := (Writes.foldlM writes_leAlunoCR (comQuebra (linhas contents)) 0).bind
    (fun n => Writes.ret ("Lidos: "++toString n++".\n"))
  simp only [foldlM_none,Option.bind_fun_some] at hw
  exact hw

theorem forall₂_comQuebra (ls : List (List Char)) :
    List.Forall₂ (fun line l => line=l ∨ line=l++['\n']) (comQuebra ls)
      (if ls.getLast?=some [] then ls.dropLast else ls) := by
  induction ls with
  | nil => exact .nil
  | cons l ls ih =>
    cases ls with
    | nil =>
      by_cases h : l=[]
      · simp [comQuebra,h]
      · simp [comQuebra,h]
    | cons l' ls =>
      rw [comQuebra,List.getLast?_cons_cons]
      split_ifs at ih ⊢
      · exact .cons (.inr rfl) ih
      · exact .cons (.inr rfl) ih

/-- The two ways to read a file see the same lines, with and without their line breaks. -/
theorem forall₂_readlines (contents : String) :
    List.Forall₂ (fun line l => line=l ∨ line=l++['\n']) (comQuebra (linhas contents))
      (readlines contents) := forall₂_comQuebra (linhas contents)

/-! The numeral of a CR. -/

theorem valor_append_singleton (ds : List Char) (c : Char) :
    valor (ds++[c])=10*valor ds+(c.toNat-48) := by
  rw [valor,List.foldl_append]
  rfl

theorem valor_append (ds es : List Char) :
    valor (ds++es)=valor ds*10^es.length+valor es := by
  induction es using List.reverseRecOn with
  | nil => simp [valor]
  | append_singleton es c ih =>
    rw [← List.append_assoc,valor_append_singleton,valor_append_singleton,ih,List.length_append,
      List.length_singleton,Nat.pow_succ]
    ring

theorem digito_lt {c : Char} (h : c.isDigit=true) : c.toNat-48<10 := by
  simp only [Char.isDigit,Bool.and_eq_true,decide_eq_true_eq] at h
  have hc : c.toNat≤57 := h.2
  omega

/-- Without its last digit a numeral stands for a tenth, rounded down. -/
theorem valor_dropLast {ds : List Char} (h : ∀ c ∈ ds,c.isDigit=true) :
    valor ds.dropLast=valor ds/10 := by
  cases ds using List.reverseRecOn with
  | nil => rfl
  | append_singleton ds c =>
    have hc := digito_lt (h c (by simp))
    rw [List.dropLast_concat,valor_append_singleton]
    omega

/-- A line of the file: matricula, nome and a CR with a decimal comma. -/
structure LinhaCR where
  matricula : List Char
  nome : List Char
  inteiro : List Char
  decimais : List Char
  matricula_livre : ';' ∉ matricula
  nome_livre : ';' ∉ nome
  inteiro_digitos : inteiro≠[] ∧ ∀ c ∈ inteiro,c.isDigit=true
  decimais_digitos : decimais≠[] ∧ ∀ c ∈ decimais,c.isDigit=true

namespace LinhaCR

variable (l : LinhaCR)

def cr : List Char := l.inteiro++ ','::l.decimais

def linha : List Char := [';'].intercalate [l.matricula,l.nome,l.cr]

/-- The number the CR stands for. -/
def media : ℚ := valor l.inteiro+valor l.decimais/10^l.decimais.length

/-- Its digits read as one number. -/
def numeral : Nat := valor (l.inteiro++l.decimais)

theorem digitos : ∀ c ∈ l.inteiro++l.decimais,c.isDigit=true :=
  List.forall_mem_append.mpr ⟨l.inteiro_digitos.2,l.decimais_digitos.2⟩

theorem media_eq : l.media=l.numeral/10^l.decimais.length := by
  rw [media,numeral,valor_append]
  push_cast
  rw [add_div,mul_div_cancel_right₀ _ (by positivity)]

/-- The integer part of ten times the CR keeps one decimal digit. -/
theorem floor_media : ⌊10*l.media⌋=((l.numeral/10^(l.decimais.length-1) : Nat) : Int) := by
  have hk : 0<l.decimais.length := List.length_pos_of_ne_nil l.decimais_digitos.1
  have hm : 10*l.media=(l.numeral : ℚ)/((10^(l.decimais.length-1) : Nat) : ℚ) := by
    obtain ⟨k,hk⟩ := Nat.exists_eq_add_one.mpr hk
    rw [media_eq,hk,Nat.add_sub_cancel,pow_succ]
    push_cast
    field_simp
  rw [hm]
  exact Rat.floor_natCast_div_natCast _ _

theorem separador_cr {q : List Char} (hq : ';' ∉ q) : ';' ∉ l.cr++q := by
  have hd : ∀ ds : List Char,(∀ c ∈ ds,c.isDigit=true) → ';' ∉ ds :=
    fun ds h hc => absurd (h ';' hc) (by decide)
  rw [cr,List.mem_append,List.mem_append,List.mem_cons]
  rintro ((h | h | h) | h)
  · exact hd _ l.inteiro_digitos.2 h
  · cases h
  · exact hd _ l.decimais_digitos.2 h
  · exact hq h

theorem campos_linha {q : List Char} (hq : ';' ∉ q) :
    campos (l.linha++q)=[l.matricula,l.nome,l.cr++q] := by
  have hl : l.linha++q=[';'].intercalate [l.matricula,l.nome,l.cr++q] := by
    simp [linha,List.intercalate]
  have hs : (l.linha++q).splitOn ';'=[l.matricula,l.nome,l.cr++q] := by
    rw [hl]
    refine List.splitOn_intercalate _ ?_ nofun
    simp only [List.forall_mem_cons]
    exact ⟨l.matricula_livre,l.nome_livre,l.separador_cr hq,nofun⟩
  have hne : (l.cr++q).isEmpty=false := by simp [cr]
  rw [campos,hs]
  simp [hne]

theorem semUltimo_cr {q : List Char} (hq : ∀ c ∈ q,c.isDigit=false) :
    semUltimo (l.cr++q)=(l.inteiro++l.decimais).dropLast := by
  have hv : (',').isDigit=false := rfl
  have hq : q.filter Char.isDigit=[] := List.filter_eq_nil_iff.mpr (by simpa using hq)
  rw [semUltimo,cr,List.filter_append,List.filter_append,List.filter_cons_of_neg (by simp [hv]),hq,
    List.filter_eq_self.mpr l.inteiro_digitos.2,List.filter_eq_self.mpr l.decimais_digitos.2,
    List.append_nil]

/-- The record the loop asks for. -/
def pedido : AlunoParams where
  score := some (some ((l.numeral/10 : Nat) : Int))
  matricula := some (some (String.ofList (strip l.matricula)))
  nome := some (some (String.ofList (strip l.nome)))

theorem leAlunoCR_linha (lidos : Nat) {q : List Char} (hq : ';' ∉ q)
    (hd : ∀ c ∈ q,c.isDigit=false) :
    leAlunoCR lidos (l.linha++q)=(do createAluno l.pedido; pure (lidos+1)) := by
  have hne : (l.inteiro++l.decimais).dropLast≠[] := by
    rw [List.dropLast_append_of_ne_nil l.decimais_digitos.1]
    exact List.append_ne_nil_of_left_ne_nil l.inteiro_digitos.1 _
  have hs : paraInteiro (semUltimo (l.cr++q))=some ((l.numeral/10 : Nat) : Int) := by
    rw [l.semUltimo_cr hd,paraInteiro,if_neg hne,valor_dropLast l.digitos,numeral]
  rw [leAlunoCR,l.campos_linha hq]
  dsimp only
  rw [hs]
  rfl

end LinhaCR

/-- What the loop asks for over a whole file. -/
theorem leAlunoCR_arquivo {contents : String} {ls : List LinhaCR}
    (h : readlines contents=ls.map LinhaCR.linha) (lidos : Nat) :
    List.Forall₂ (fun line l => leAlunoCR lidos line=(do createAluno l.pedido; pure (lidos+1)))
      (comQuebra (linhas contents)) ls := by
  have hf := forall₂_readlines contents
  rw [h,List.forall₂_map_right_iff] at hf
  refine hf.imp ?_
  rintro line l (rfl | rfl)
  · have hl := l.leAlunoCR_linha lidos (q := []) nofun nofun
    rwa [List.append_nil] at hl
  · refine l.leAlunoCR_linha lidos (by decide) ?_
    exact List.forall_mem_singleton.mpr rfl

theorem div_dez_eq_iff (n : Nat) {k : Nat} (hk : 0<k) :
    n/10=n/10^(k-1) ↔ k=2 ∨ n=0 ∨ 2<k ∧ n<10 := by
  rcases Nat.lt_trichotomy k 2 with h | rfl | h
  · obtain rfl : k=1 := by omega
    simp only [Nat.sub_self,pow_zero,Nat.div_one]
    omega
  · simp
  · obtain ⟨j,rfl⟩ := Nat.exists_eq_add_of_lt h
    have hpow : 10^(2+j+1-1)=100*10^j := by
      rw [Nat.add_sub_cancel,pow_add]
      rfl
    have hle : n/(100*10^j)≤n/100 := Nat.div_le_div_left
      (Nat.le_mul_of_pos_right 100 (Nat.pow_pos (by omega))) (by omega)
    rw [hpow]
    generalize n/(100*10^j)=m at hle ⊢
    omega

/-- The score asked for is the integer part of ten times the CR only for a CR with two decimals, but
for numerals that come to 0 either way. -/
theorem score_eq_floor_iff (l : LinhaCR) : l.pedido.score=some (some ⌊10*l.media⌋) ↔
    l.decimais.length=2 ∨ l.numeral=0 ∨ 2<l.decimais.length ∧ l.numeral<10 := by
  rw [l.floor_media,LinhaCR.pedido,Option.some_inj,Option.some_inj,Int.natCast_inj]
  exact div_dez_eq_iff _ (List.length_pos_of_ne_nil l.decimais_digitos.1)

/-- What the script is for: one aluno for each line. -/
structure Escalonado (ls : List LinhaCR) (s : World) (o : Outcome Evento World Erro String) :
    Prop where
  completa : o.ok=true
  criados : ∃ novos,o.state.db.alunos.rows=s.db.alunos.rows++novos ∧
    novos.map (fun a => (a.matricula,a.nome,a.score))=
      ls.map (fun l => (some (String.ofList (strip l.matricula)),
        some (String.ofList (strip l.nome)),some ⌊10*l.media⌋))

/-- The script imports the empty file and no other: the first line raises. -/
theorem escalonado_iff {s : World} {contents : String} {ls : List LinhaCR}
    (h : readlines contents=ls.map LinhaCR.linha) :
    Escalonado ls s ((importaEscalonamento contents).exec s) ↔ ls=[] := by
  have hvazio : comQuebra (linhas contents)=[] ↔ ls=[] := by
    have hlen := (forall₂_readlines contents).length_eq
    rw [h,List.length_map] at hlen
    rw [← List.length_eq_zero_iff,hlen,List.length_eq_zero_iff]
  obtain ⟨hok,hdb⟩ := writes_importaEscalonamento contents s
  dsimp only at hok hdb
  constructor
  · intro he
    rw [he.completa] at hok
    by_contra hn
    rw [if_neg (fun hc => hn (hvazio.mp hc))] at hok
    cases hok
  · intro hl
    rw [if_pos (hvazio.mpr hl)] at hok hdb
    refine ⟨hok,[],?_,by rw [hl]; rfl⟩
    rw [hdb _ rfl,List.append_nil]

end Script

namespace Cenario

def linhaCR : Script.LinhaCR where
  matricula := ['2','0','2']
  nome := [' ','A','n','a']
  inteiro := ['7']
  decimais := ['8','5']
  matricula_livre := by decide
  nome_livre := by decide
  inteiro_digitos := ⟨List.cons_ne_nil _ _,List.all_eq_true.mp rfl⟩
  decimais_digitos := ⟨List.cons_ne_nil _ _,List.all_eq_true.mp rfl⟩

end Cenario

namespace Script

/-- An empty file, and a file of one line with a CR of two decimals. -/
theorem escalonado_iff_arquivos :
    let s := Cenario.turma Cenario.veterano []
    Escalonado [] s ((importaEscalonamento "").exec s) ∧
    readlines "202; Ana;7,85\n"=[Cenario.linhaCR].map LinhaCR.linha ∧
    ¬Escalonado [Cenario.linhaCR] s ((importaEscalonamento "202; Ana;7,85\n").exec s) := by
  intro s
  have h₀ : readlines ""=([] : List LinhaCR).map LinhaCR.linha := by decide +kernel
  have h : readlines "202; Ana;7,85\n"=[Cenario.linhaCR].map LinhaCR.linha := by decide +kernel
  exact ⟨(escalonado_iff h₀).mpr rfl,h,fun he => absurd ((escalonado_iff h).mp he) nofun⟩

/-- The matricula of that line is new, and the run raises. -/
theorem escalonado_matriculaNova :
    let s := Cenario.turma Cenario.veterano []
    (∀ a ∈ s.db.alunos.rows,a.matricula≠some "202") ∧
    readlines "202; Ana;7,85\n"=[Cenario.linhaCR].map LinhaCR.linha ∧
    ¬Escalonado [Cenario.linhaCR] s ((importaEscalonamento "202; Ana;7,85\n").exec s) := by
  intro s
  refine ⟨by decide +kernel,by decide +kernel,fun h => ?_⟩
  have hok : ((importaEscalonamento "202; Ana;7,85\n").exec s).ok=false := by decide +kernel
  rw [h.completa] at hok
  cases hok

end Script

end Sisfila
