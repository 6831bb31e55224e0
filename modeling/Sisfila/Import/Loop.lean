import Sisfila.Import.Transaction

namespace Sisfila

/-- `Aluno.where(matricula: m).first` -/
def Db.dono (d : Db) (m : String) : Option Aluno :=
  d.alunos.rows.find? (fun a => a.matricula==some m)

namespace ImporterController

variable (grupo : Option Grupo) (colegiado : Option Colegiado)

/-! One valid line, as a function of the tables. -/

/-- The database in which a matricula has its aluno, if one can be created. -/
def comNovo (d : Db) (m : String) : Db :=
  if (d.dono m).isSome then d else colegiado.elim d (fun c => insereAluno d m c.id)

/-- The update of an aluno that fails its validation is dropped without a word. -/
def atualizado (n : String) (d : Db) (a : Aluno) : Db :=
  if d.alunoValido a then ativaAluno d a.id n else d

def juntado (d : Db) (i : Nat) : Db := grupo.elim d (fun g => junta d i g.id)

/-- The update and the join row. With a grupo, changes that cannot be saved raise. -/
def agrupado (n : String) (d : Db) (a : Aluno) : Option Db :=
  if grupo.isSome=true → d.alunoValido a=true ∨ ativado n a=a
  then some (juntado grupo (atualizado n d a) a.id) else none

def passo (d : Db) (r : String × String) : Option Db :=
  ((comNovo colegiado d r.1).dono r.1).bind (agrupado grupo r.2 (comNovo colegiado d r.1))

theorem alunoValido_ativado (d : Db) (n : String) (a : Aluno) :
    d.alunoValido (ativado n a)=d.alunoValido a := rfl

theorem find_insereAluno (d : Db) (m : String) (c : Nat) :
    (insereAluno d m c).alunos.find d.alunos.next=
      some { id := d.alunos.next, matricula := some m, colegiadoId := some c } := by
  rw [Table.find_eq_some_iff]
  exact ⟨List.mem_append_right _ (List.mem_singleton_self _),rfl⟩

theorem dono_insereAluno {d : Db} {m : String} (h : d.dono m=none) (c : Nat) :
    (insereAluno d m c).dono m=
      some { id := d.alunos.next, matricula := some m, colegiadoId := some c } := by
  rw [Db.dono] at h
  simp [Db.dono,insereAluno,List.find?_append,h]

/-- The loop body from the aluno on. -/
def atualizaLinha (m n : String) (x : Aluno × Bool) : Req String := do
  let ok ← consulta (fun d => d.alunoValido (ativado n x.1))
  (if ok then grava (fun d => ativaAluno d x.1.id n) else pure ())
  poeNoGrupo x.1 (ok || decide (ativado n x.1=x.1)) grupo
  pure ((if x.2 then "(novo aluno criado) " else "")++"'"++m++"' - '"++n++"'\n")

theorem importaAluno_eq (m n : String) : importaAluno grupo colegiado m n=
    alunoDaLinha m colegiado >>= atualizaLinha grupo m n := rfl

theorem writes_atualizaLinha (m n : String) (x : Aluno × Bool) :
    Writes (atualizaLinha grupo m n x) (fun d => agrupado grupo n d x.1) := by
  intro s
  unfold WritesAt atualizaLinha agrupado atualizado juntado
  cases hv : s.db.alunoValido x.1 <;> cases grupo <;> by_cases hn : ativado n x.1=x.1 <;>
    simp [Prog.exec_bind,alunoValido_ativado,hv,hn,poeNoGrupo]

theorem exec_alunoDaLinha {m : String} {s : World} {a : Aluno} (h : s.db.dono m=some a) :
    (alunoDaLinha m colegiado).exec s=⟨[.consulta],.ok (a,false),s⟩ := by
  rw [Db.dono] at h
  simp [alunoDaLinha,Prog.exec_bind,h]

theorem exec_alunoDaLinha_novo {m : String} {s : World} (h : s.db.dono m=none) (c : Colegiado) :
    ∃ log,(alunoDaLinha m (some c)).exec s=⟨log,
      .ok ({ id := s.db.alunos.next, matricula := some m, colegiadoId := some c.id },true),
      { s with db := insereAluno s.db m c.id }⟩ := by
  rw [Db.dono] at h
  refine ⟨[.consulta,.consulta,.grava,.consulta],?_⟩
  simp [alunoDaLinha,Prog.exec_bind,h,AlunosController.setAluno,acha,find_insereAluno]

theorem ok_alunoDaLinha {m : String} {s : World} (h : s.db.dono m=none) :
    ((alunoDaLinha m none).exec s).ok=false := by
  rw [Db.dono] at h
  simp [alunoDaLinha,Prog.exec_bind,h]

theorem writes_importaAluno (m n : String) : Writes (importaAluno grupo colegiado m n)
    (fun d => passo grupo colegiado d (m,n)) := by
  intro s
  rw [importaAluno_eq]
  dsimp only [passo,comNovo]
  cases hd : s.db.dono m with
  | some a =>
    simp only [Option.isSome_some,if_true,hd,Option.bind_some]
    exact WritesAt.bind_ok (exec_alunoDaLinha colegiado hd)
      (writes_atualizaLinha grupo m n (a,false) s)
  | none =>
    simp only [Option.isSome_none,Bool.false_eq_true,if_false]
    cases colegiado with
    | none =>
      simp only [Option.elim_none,hd,Option.bind_none]
      exact WritesAt.bind_error _ (ok_alunoDaLinha hd)
    | some c =>
      obtain ⟨log,hl⟩ := exec_alunoDaLinha_novo hd c
      simp only [Option.elim_some,dono_insereAluno hd,Option.bind_some]
      exact WritesAt.bind_ok hl
        (writes_atualizaLinha grupo m n _ { s with db := insereAluno s.db m c.id })

/-- The matricula and the name of each valid line. -/
def registros (contents : String) : List (String × String) :=
  (linhas contents).filterMap (fun l => leLinha (limpa l))

theorem writes_importaLinha (x : String × Nat) (l : List Char) :
    Writes (importaLinha grupo colegiado x l)
      (fun d => (leLinha (limpa l)).elim (some d) (passo grupo colegiado d)) := by
  unfold importaLinha
  by_cases he : limpa l=[]
  · rw [if_pos he,he]
    exact Writes.ret x
  · rw [if_neg he]
    cases hr : leLinha (limpa l) with
    | none => exact Writes.ret _
    | some r =>
      have h := (writes_importaAluno grupo colegiado r.1 r.2).bind
        (fun saida => Writes.ret (x.1++saida,x.2+1))
      simpa using h

theorem foldlM_registros (contents : String) (d : Db) :
    (linhas contents).foldlM
      (fun d l => (leLinha (limpa l)).elim (some d) (passo grupo colegiado d)) d=
    (registros contents).foldlM (passo grupo colegiado) d := by
  rw [registros,List.foldlM_filterMap]
  congr 1
  funext d l
  cases leLinha (limpa l) <;> rfl

/-- The tables when the loop starts. -/
def esvaziado (d : Db) : Db := grupo.elim d (fun g => esvaziaGrupo d g.id)

theorem exec_removeAlunos (s : World) : ∃ log saida,
    (removeAlunos grupo).exec s=⟨log,.ok saida,{ s with db := esvaziado grupo s.db }⟩ := by
  cases grupo with
  | none => exact ⟨[],_,rfl⟩
  | some g => exact ⟨_,_,rfl⟩

/-- The transaction and the line printed after it. -/
def importaLinhas (contents saida : String) : Req String :=
  transacao ((linhas contents).foldlM (importaLinha grupo colegiado)
    (saida++"Importando alunos:\n",0)) >>= fun x => .ret (x.1++"Lidos: "++toString x.2++".\n")

theorem importaEscalonamento_eq (contents : String) :
    importaEscalonamento contents grupo colegiado=
      removeAlunos grupo >>= importaLinhas grupo colegiado contents := rfl

theorem writes_importaLinhas (contents saida : String) :
    Writes (importaLinhas grupo colegiado contents saida)
      (fun d => (registros contents).foldlM (passo grupo colegiado) d) := by
  have hl := (Writes.foldlM (writes_importaLinha grupo colegiado) (linhas contents)
    (saida++"Importando alunos:\n",0)).transacao.bind
      (fun x => Writes.ret (x.1++"Lidos: "++toString x.2++".\n"))
  simp only [foldlM_registros,Option.bind_fun_some] at hl
  exact hl

theorem writes_importaEscalonamento (contents : String) :
    Writes (importaEscalonamento contents grupo colegiado)
      (fun d => (registros contents).foldlM (passo grupo colegiado) (esvaziado grupo d)) := by
  intro s
  obtain ⟨log,saida,hr⟩ := exec_removeAlunos grupo s
  rw [importaEscalonamento_eq]
  exact WritesAt.bind_ok hr
    (writes_importaLinhas grupo colegiado contents saida { s with db := esvaziado grupo s.db })

/-- Only the emptied grupo stays behind when the loop raises. -/
theorem db_importaEscalonamento_of_error {contents : String} {s : World}
    (h : ((importaEscalonamento contents grupo colegiado).exec s).ok=false) :
    ((importaEscalonamento contents grupo colegiado).exec s).state.db=esvaziado grupo s.db := by
  obtain ⟨log,saida,hr⟩ := exec_removeAlunos grupo s
  have hu : Undoes (importaLinhas grupo colegiado contents saida) := (undoes_transacao _).map _
  rw [importaEscalonamento_eq,Prog.exec_bind,hr,Outcome.andThen_ok] at h ⊢
  exact hu { s with db := esvaziado grupo s.db } h

end ImporterController

end Sisfila
