import Sisfila.Import.Guarantees
import Sisfila.Model.Scripts

namespace Sisfila

namespace Script

open ImporterController (strip dono_map alunoValido_map)

/-- The matricula on a line. -/
def matricula (line : List Char) : String := String.ofList (strip line)

/-! One line, as a function of the tables. -/

def passo (d : Db) (line : List Char) : Option Db :=
  if strip line=[] then none
  else (d.dono (matricula line)).map (fun a => if d.alunoValido a then formaAluno d a.id else d)

theorem alunoValido_formado (d : Db) (a : Aluno) : d.alunoValido (formado a)=d.alunoValido a := rfl

theorem writes_leFormando (saida : String) (line : List Char) :
    Writes (leFormando saida line) (fun d => passo d line) := by
  intro s
  unfold WritesAt leFormando passo
  dsimp only
  by_cases hl : strip line=[]
  · simp [hl]
  · rw [if_neg hl,if_neg hl]
    cases hd : s.db.dono (matricula line) with
    | none =>
      rw [Db.dono,matricula] at hd
      simp [Prog.exec_bind,hd]
    | some a =>
      rw [Db.dono,matricula] at hd
      cases hv : s.db.alunoValido a <;> simp [Prog.exec_bind,hd,alunoValido_formado,hv]

/-! The tables after some of the lines. -/

/-- What the lines with the matriculas `ms` make of an aluno. -/
def marcado (d : Db) (ms : List String) (a : Aluno) : Aluno :=
  if d.alunoValido a=true ∧ a.matricula ∈ ms.map some then formado a else a

theorem marcado_colunas (d : Db) (ms : List String) (a : Aluno) :
    (marcado d ms a).id=a.id ∧ (marcado d ms a).matricula=a.matricula ∧
      (marcado d ms a).colegiadoId=a.colegiadoId := by
  unfold marcado
  split_ifs
  · exact ⟨rfl,rfl,rfl⟩
  · exact ⟨rfl,rfl,rfl⟩

theorem key_marcado (d : Db) (ms : List String) (a : Aluno) :
    Row.key (marcado d ms a)=Row.key a := (marcado_colunas d ms a).1

def marcados (d : Db) (ms : List String) : Db :=
  { d with alunos := d.alunos.map (marcado d ms) (key_marcado d ms) }

theorem marcados_nil (d : Db) : marcados d []=d := by
  have hm : ∀ a ∈ d.alunos.rows,marcado d [] a=a := by
    intro a _
    simp [marcado]
  rw [marcados,d.alunos.map_eq_self _ hm]

/-- One line more marks its own aluno, if it can be saved, and no other. -/
theorem marcado_append (d : Db) (ms : List String) (m : String) (a : Aluno) :
    marcado d (ms++[m]) a=if d.alunoValido a=true ∧ a.matricula=some m
      then formado (marcado d ms a) else marcado d ms a := by
  by_cases h : d.alunoValido a=true ∧ a.matricula=some m
  · have hm : a.matricula ∈ (ms++[m]).map some := by simp [h.2]
    rw [if_pos h,marcado,if_pos ⟨h.1,hm⟩,marcado]
    split_ifs
    · rfl
    · rfl
  · have hm : (d.alunoValido a=true ∧ a.matricula ∈ (ms++[m]).map some) ↔
        d.alunoValido a=true ∧ a.matricula ∈ ms.map some := by
      refine and_congr_right (fun hv => ?_)
      have hne : a.matricula≠some m := fun hm => h ⟨hv,hm⟩
      rw [List.map_append,List.mem_append,List.map_singleton,List.mem_singleton,or_iff_left hne]
    rw [if_neg h,marcado,marcado]
    simp only [hm]

/-- One line more, and the only two ways it can raise. -/
theorem passo_marcados (d : Db) (ms : List String) (line : List Char) (d' : Db) :
    passo (marcados d ms) line=some d' ↔
      (strip line≠[] ∧ (d.dono (matricula line)).isSome=true) ∧
        d'=marcados d (ms++[matricula line]) := by
  have hdono : (marcados d ms).dono (matricula line)=
      (d.dono (matricula line)).map (marcado d ms) :=
    dono_map (key_marcado d ms) rfl (fun a => (marcado_colunas d ms a).2.1) _
  have hvalido : ∀ a,(marcados d ms).alunoValido (marcado d ms a)=d.alunoValido a :=
    alunoValido_map (key_marcado d ms) rfl rfl (fun a => (marcado_colunas d ms a).2.1)
      (fun a => (marcado_colunas d ms a).2.2)
  rw [passo,hdono]
  by_cases hl : strip line=[]
  · simp [hl]
  rw [if_neg hl]
  cases hb : d.dono (matricula line) with
  | none => simp
  | some b =>
    have hid : (marcado d ms b).id=b.id := (marcado_colunas d ms b).1
    have ht := d.alunos.map_modify_of_iff (key_marcado d ms)
      (key_marcado d (ms++[matricula line])) key_formado (marcado_append d ms (matricula line))
      (fun x hx => Db.valido_iff_dono hb (x := x) hx)
    have hd : (if d.alunoValido b=true then formaAluno (marcados d ms) b.id else marcados d ms)=
        marcados d (ms++[matricula line]) := by
      rw [marcados,marcados,← ht]
      split_ifs
      · rfl
      · rfl
    rw [Option.map_some,Option.map_some,hvalido,hid,hd,Option.some_inj,
      and_iff_right ⟨hl,rfl⟩,eq_comm]

/-- The whole loop: which lines it takes and what it leaves. -/
theorem foldlM_passo (d : Db) (ls : List (List Char)) (d' : Db) :
    ls.foldlM passo d=some d' ↔
      (∀ l ∈ ls,strip l≠[] ∧ (d.dono (matricula l)).isSome=true) ∧
        d'=marcados d (ls.map matricula) := by
  induction ls using List.reverseRecOn generalizing d' with
  | nil =>
    rw [List.foldlM_nil,List.map_nil,marcados_nil]
    exact Option.some_inj.trans (eq_comm.trans (and_iff_right (by simp)).symm)
  | append_singleton ls l ih =>
    rw [List.foldlM_append,List.map_append,List.map_singleton,List.forall_mem_append]
    simp only [List.foldlM_cons,List.foldlM_nil,bind_pure,List.forall_mem_singleton]
    constructor
    · intro h
      obtain ⟨x,hx,hp⟩ := Option.bind_eq_some_iff.mp h
      obtain ⟨ha,rfl⟩ := (ih x).mp hx
      obtain ⟨hl,hd⟩ := (passo_marcados d _ l d').mp hp
      exact ⟨⟨ha,hl⟩,hd⟩
    · rintro ⟨⟨ha,hl⟩,hd⟩
      exact Option.bind_eq_some_iff.mpr
        ⟨_,(ih _).mpr ⟨ha,rfl⟩,(passo_marcados d _ l d').mpr ⟨hl,hd⟩⟩

/-! What the script is for. -/

/-- The matriculas on the lines that are not blank. -/
def matriculas (contents : String) : List String :=
  ((readlines contents).filter (fun l => strip l≠[])).map matricula

theorem matriculas_of_cheias {contents : String} (h : ∀ l ∈ readlines contents,strip l≠[]) :
    matriculas contents=(readlines contents).map matricula := by
  rw [matriculas,List.filter_eq_self.mpr]
  intro l hl
  exact decide_eq_true (h l hl)

def formandoSe (ms : List String) (a : Aluno) : Aluno :=
  if a.matricula ∈ ms.map some then formado a else a

theorem key_formandoSe (ms : List String) (a : Aluno) : Row.key (formandoSe ms a)=Row.key a := by
  unfold formandoSe
  split_ifs
  · rfl
  · rfl

/-- The alunos with one of the matriculas are formandos, and nothing else has changed. -/
def comFormandos (d : Db) (ms : List String) : Db :=
  { d with alunos := d.alunos.map (formandoSe ms) (key_formandoSe ms) }

theorem formado_eq_self (a : Aluno) : formado a=a ↔ a.formando=some true := by
  constructor
  · intro h
    exact (congrArg Aluno.formando h).symm
  · intro h
    rw [formado,← h]

theorem marcados_eq_comFormandos (d : Db) (ms : List String) :
    marcados d ms=comFormandos d ms ↔ ∀ a ∈ d.alunos.rows,a.matricula ∈ ms.map some →
      d.alunoValido a=true ∨ a.formando=some true := by
  have hrows : marcados d ms=comFormandos d ms ↔
      ∀ a ∈ d.alunos.rows,marcado d ms a=formandoSe ms a := by
    rw [← List.map_inj_left]
    constructor
    · intro h
      exact congrArg (fun d => d.alunos.rows) h
    · intro h
      unfold marcados comFormandos
      congr 1
      exact Table.rows_injective h rfl
  rw [hrows]
  refine forall₂_congr (fun a _ => ?_)
  unfold marcado formandoSe
  by_cases hm : a.matricula ∈ ms.map some
  · by_cases hv : d.alunoValido a=true
    · simp [hm,hv]
    · simp [hm,hv,← formado_eq_self,eq_comm]
  · simp [hm]

/-- The script does its work exactly on files without a blank line or an unknown matricula, whose
alunos pass their validation or are formandos already. -/
theorem importaFormandos_marca (contents : String) (s : World) :
    (((importaFormandos contents).exec s).ok=true ∧
      ((importaFormandos contents).exec s).state.db=comFormandos s.db (matriculas contents)) ↔
    (∀ l ∈ readlines contents,strip l≠[] ∧ (s.db.dono (matricula l)).isSome=true) ∧
      ∀ a ∈ s.db.alunos.rows,a.matricula ∈ (matriculas contents).map some →
        s.db.alunoValido a=true ∨ a.formando=some true := by
  obtain ⟨hok,hdb⟩ := (Writes.foldlM writes_leFormando (readlines contents) "").transacao s
  constructor
  · rintro ⟨h,hd⟩
    obtain ⟨d,hf⟩ := Option.isSome_iff_exists.mp (hok.symm.trans h)
    obtain ⟨hl,rfl⟩ := (foldlM_passo _ _ d).mp hf
    rw [matriculas_of_cheias (fun l h => (hl l h).1)] at hd ⊢
    exact ⟨hl,(marcados_eq_comFormandos _ _).mp ((hdb _ hf).symm.trans hd)⟩
  · rintro ⟨hl,ha⟩
    rw [matriculas_of_cheias (fun l h => (hl l h).1)] at ha ⊢
    have hf := (foldlM_passo s.db (readlines contents) _).mpr ⟨hl,rfl⟩
    exact ⟨hok.trans (Option.isSome_iff_exists.mpr ⟨_,hf⟩),
      (hdb _ hf).trans ((marcados_eq_comFormandos _ _).mpr ha)⟩

/-- The blank line between two matriculas raises, and the first aluno is no formando after all. -/
theorem importaFormandos_linhaVazia :
    ((importaFormandos "1\n\n1\n").exec (Cenario.turma Cenario.veterano [])).ok=false ∧
    ((importaFormandos "1\n\n1\n").exec (Cenario.turma Cenario.veterano [])).state.db≠
      comFormandos (Cenario.turma Cenario.veterano []).db (matriculas "1\n\n1\n") := by
  decide +kernel

end Script

end Sisfila
