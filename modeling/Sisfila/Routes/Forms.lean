import Sisfila.Model.Routes
import Sisfila.Queue.Run

namespace Sisfila

/-! The forms that create a record. -/

/-- A superadmin whose record does not pass the validations gets the form again. -/
theorem exec_comFiltros_invalida {u : Sessao} (hu : Ability.manageAll u=true) {s : World}
    {valida : Db → Bool} (hv : valida s.db=false) (entrada : Bool) (salva : Req Resposta) :
    ∃ log,(comFiltros (pure ()) entrada u (fun _ => do
      let ok ← consulta valida
      if ok then salva else pure .nova)).exec s=⟨log,.ok .nova,s⟩ := by
  have hin : (entrada && u.usuario.isNone)=false := by
    cases hus : u.usuario with
    | none => simp [Ability.manageAll,hus] at hu
    | some x => simp
  refine ⟨[.consulta],?_⟩
  simp [comFiltros,hin,authorize,hu,Prog.exec_bind,hv]

/-- The request adds one row to the table. -/
def CriaUma {ρ : Type} [Row ρ] (tabela : Db → Table ρ) (p : Req Resposta) (s : World) : Prop :=
  (tabela (p.exec s).state.db).rows.length=(tabela s.db).rows.length+1

instance {ρ : Type} [Row ρ] (tabela : Db → Table ρ) (p : Req Resposta) (s : World) :
    Decidable (CriaUma tabela p s) := inferInstanceAs (Decidable (_=_))

theorem not_criaUma {ρ : Type} [Row ρ] (tabela : Db → Table ρ) {p : Req Resposta} {s : World}
    (h : ∃ log,p.exec s=⟨log,.ok .nova,s⟩) : ¬CriaUma tabela p s := by
  obtain ⟨log,h⟩ := h
  rw [CriaUma,h]
  exact Nat.ne_of_lt (Nat.lt_succ_self _)

section

variable {u : Sessao} (hu : Ability.manageAll u=true) (s : World)

include hu

theorem AlunosController.exec_create (p : AlunoParams) :
    ∃ log,(AlunosController.create u p).exec s=⟨log,.ok .nova,s⟩ :=
  exec_comFiltros_invalida hu (Bool.false_and _) _ _

theorem FilasController.exec_create (p : FilaParams) :
    ∃ log,(FilasController.create u p).exec s=⟨log,.ok .nova,s⟩ :=
  exec_comFiltros_invalida hu rfl _ _

theorem VagasController.exec_create (p : VagaParams) :
    ∃ log,(VagasController.create u p).exec s=⟨log,.ok .nova,s⟩ :=
  exec_comFiltros_invalida hu (Bool.and_false _) _ _

end

/-- No form creates a record: whatever the request sends, the whitelist drops the colegiado of an
aluno or a fila and the fila of a vaga, and the record without it is not saved. -/
theorem create_nunca_cria {u : Sessao} (hu : Ability.manageAll u=true) (s : World)
    (a : AlunoForm) (f : FilaForm) (v : VagaForm) :
    ¬CriaUma (fun d => d.alunos) (AlunosController.create u (AlunosController.alunoParams a)) s ∧
    ¬CriaUma (fun d => d.filas) (FilasController.create u (FilasController.filaParams f)) s ∧
    ¬CriaUma (fun d => d.vagas) (VagasController.create u (VagasController.vagaParams v)) s :=
  ⟨not_criaUma _ (AlunosController.exec_create hu s _),
    not_criaUma _ (FilasController.exec_create hu s _),
    not_criaUma _ (VagasController.exec_create hu s _)⟩

/-- The columns that the tests of the three controllers send. -/
theorem create_nunca_cria_testes :
    let s := Cenario.world Cenario.duas Cenario.umaEmCada
    let u := Cenario.mesa 1
    Ability.manageAll u=true ∧
    ¬CriaUma (fun d => d.alunos) (AlunosController.create u (AlunosController.alunoParams
      { matricula := some (some "a"), nome := some none })) s ∧
    ¬CriaUma (fun d => d.filas) (FilasController.create u (FilasController.filaParams
      { ativo := some (some true), codigo := some none, prioridade := some (some 1) })) s ∧
    ¬CriaUma (fun d => d.vagas) (VagasController.create u (VagasController.vagaParams
      { alunoId := some (some 1), dataChamada := some none, posicao := some (some 1) })) s :=
  ⟨rfl,create_nunca_cria rfl _ _ _ _⟩

/-- Sent with a colegiado and a fila that exist and with a new matricula, they are refused as
well. -/
theorem create_recusa_validos :
    let s := Cenario.world Cenario.duas Cenario.umaEmCada
    let u := Cenario.mesa 1
    (s.db.colegiados.find 1).isSome=true ∧ (s.db.filas.find 1).isSome=true ∧
    (s.db.alunos.find 3).isSome=true ∧ (∀ a ∈ s.db.alunos.rows,a.matricula≠some "f") ∧
    ¬CriaUma (fun d => d.alunos) (AlunosController.create u (AlunosController.alunoParams
      { matricula := some (some "f"), colegiadoId := some (some 1) })) s ∧
    ¬CriaUma (fun d => d.filas) (FilasController.create u (FilasController.filaParams
      { codigo := some (some "C"), colegiadoId := some (some 1) })) s ∧
    ¬CriaUma (fun d => d.vagas) (VagasController.create u (VagasController.vagaParams
      { alunoId := some (some 3), filaId := some (some 1) })) s := by
  decide +kernel

end Sisfila
