import Sisfila.Concurrency.Desks
import Sisfila.Framework.Protocol
import Sisfila.Framework.References
import Sisfila.Routes.Access

namespace Sisfila

/-! What each route may do beside others, statement by statement. -/

/-- How far a request has come: nothing written yet, a pointer moved, a desk written, the payload
sent to the screen. -/
inductive Fase where
  | livre
  | movida
  | sentada
  | avisada
  deriving DecidableEq

def Fase.segue : Fase → Evento → Fase
  | _,.incrementa _ _ => .movida
  | _,.associa _ _ => .sentada
  | _,.difunde _ => .avisada
  | q,_ => q

/-- The code of fila `f`. -/
def Core.codigos (k : Core) (f : Nat) : Option (Option String) :=
  (k.filas.find f).map FilaBase.codigo

namespace Rota

/-- The direction in which a route moves a pointer. -/
def sentido : Rota → Int
  | .requisicao (.filasAnterior _ _) => -1
  | _ => 1

/-- The forms of the mesas. -/
def mexeMesas : Rota → Bool
  | .mesasCreate _ _ => true
  | .mesasUpdate _ _ _ => true
  | .mesasDestroy _ _ => true
  | _ => false

/-- The forms of the filas. -/
def mexeFilas : Rota → Bool
  | .filasCreate _ _ => true
  | .filasUpdate _ _ _ => true
  | .filasDestroy _ _ => true
  | _ => false

/-- The enrolment and the forms of the vagas. -/
def mexeVagas : Rota → Bool
  | .requisicao (.inscrever _ _) => true
  | .vagasCreate _ _ => true
  | .vagasUpdate _ _ _ => true
  | .vagasDestroy _ _ => true
  | _ => false

def apagaAlunos : Rota → Bool
  | .alunosDestroy _ _ => true
  | _ => false

def apagaRodadas : Rota → Bool
  | .rodadasDestroy _ _ => true
  | _ => false

/-- What a write of route `r` leaves as it finds it, the moves of pointers and the desks of the
calls apart. -/
structure Poupa (r : Rota) (d d' : Db) : Prop where
  mesas : r.mexeMesas=false → d'.mesas=d.mesas
  ponteiro : r.mexeFilas=false → d'.core.ponteiro=d.core.ponteiro
  codigos : r.mexeFilas=false → d'.core.codigos=d.core.codigos
  vagas : r.mexeVagas=false → d'.core.vagas=d.core.vagas
  alunos : r.apagaAlunos=false → d.alunos.keys ⊆ d'.alunos.keys
  rodadas : r.apagaRodadas=false → d.rodadas.keys ⊆ d'.rodadas.keys
  grupos : d'.grupos=d.grupos

theorem Poupa.refl (r : Rota) (d : Db) : r.Poupa d d :=
  ⟨fun _ => rfl,fun _ => rfl,fun _ => rfl,fun _ => rfl,fun _ => List.Subset.refl _,
    fun _ => List.Subset.refl _,rfl⟩

theorem Poupa.trans {r : Rota} {d d' d'' : Db} (h : r.Poupa d d') (h' : r.Poupa d' d'') :
    r.Poupa d d'' where
  mesas hr := (h'.mesas hr).trans (h.mesas hr)
  ponteiro hr := (h'.ponteiro hr).trans (h.ponteiro hr)
  codigos hr := (h'.codigos hr).trans (h.codigos hr)
  vagas hr := (h'.vagas hr).trans (h.vagas hr)
  alunos hr := List.Subset.trans (h.alunos hr) (h'.alunos hr)
  rodadas hr := List.Subset.trans (h.rodadas hr) (h'.rodadas hr)
  grupos := h'.grupos.trans h.grupos

section tabelas

variable {r : Rota} {d d' : Db}

/-! One table at a time. -/

theorem Poupa.of_core (h : d'.core=d.core) : r.Poupa d d' where
  mesas _ := congrArg Core.mesas h
  ponteiro _ := congrArg Core.ponteiro h
  codigos _ := congrArg Core.codigos h
  vagas _ := congrArg Core.vagas h
  alunos _ := by
    have ha : d'.alunos=d.alunos := congrArg Core.alunos h
    rw [ha]
    exact List.Subset.refl _
  rodadas _ := by
    have hr : d'.rodadas=d.rodadas := congrArg Core.rodadas h
    rw [hr]
    exact List.Subset.refl _
  grupos := congrArg Core.grupos h

theorem Poupa.comAlunos {t : Table Aluno} {l : List (Nat × Nat)}
    (h : r.apagaAlunos=false → d.alunos.keys ⊆ t.keys) :
    r.Poupa d { d with alunos := t, alunosGrupos := l } :=
  { Poupa.refl r d with alunos := h }

theorem Poupa.comRodadas {t : Table Rodada} (h : r.apagaRodadas=false → d.rodadas.keys ⊆ t.keys) :
    r.Poupa d { d with rodadas := t } :=
  { Poupa.refl r d with rodadas := h }

theorem Poupa.comColegiados (t : Table Colegiado) : r.Poupa d { d with colegiados := t } :=
  { Poupa.refl r d with }

theorem Poupa.comMesas (hr : r.mexeMesas=true) (t : Table Mesa) : r.Poupa d { d with mesas := t } :=
  { Poupa.refl r d with mesas := fun h => absurd h (by simp [hr]) }

theorem Poupa.comFilas (hr : r.mexeFilas=true) (t : Table Fila) : r.Poupa d { d with filas := t } :=
  { Poupa.refl r d with
    ponteiro := fun h => absurd h (by simp [hr])
    codigos := fun h => absurd h (by simp [hr]) }

theorem Poupa.comVagas (hr : r.mexeVagas=true) (t : Table Vaga) : r.Poupa d { d with vagas := t } :=
  { Poupa.refl r d with vagas := fun h => absurd h (by simp [hr]) }

end tabelas

/-- What a statement of route `r` does in phase `q` to the state it finds. -/
inductive Pode (r : Rota) (q : Fase) (s : World) : Evento → World → Prop
  | incrementa (f : Nat) (hq : q=.livre) :
      Pode r q s (.incrementa f (((s.db.filas.find f).map (·.posicao)).getD 0+r.sentido))
        { s with db := s.db.incrementa f r.sentido }
  | associa (m : Mesa) (v : Option Nat) (t : ℚ) (hq : q=.livre ∨ q=.movida)
      (hm : r.sessao.mesa=some m.id) :
      Pode r q s (.associa m.id v) { s with db := s.db.ocupa m v t }
  | difunde : Pode r q s (.difunde s.db.dados) s
  | outra (e : Evento) (t : World) (he : ∀ q : Fase,q.segue e=q) (h : r.Poupa s.db t.db) :
      Pode r q s e t

/-- A statement that shows neither a move nor a desk nor a payload. -/
def Calada (r : Rota) (l : World → Evento) (w : World → World) : Prop :=
  ∀ s,(∀ q : Fase,q.segue (l s)=q) ∧ r.Poupa s.db (w s).db

/-- The protocol of a route: one move, one desk, and no end between a desk and its payload. -/
def Segue {α : Type} (r : Rota) (p : Req α) (q : Fase) : Prop :=
  p.Follows Fase.segue (fun q l w => ∀ s,r.Pode q s (l s) (w s)) (fun q => q≠.sentada)
    (fun _ q => q≠.sentada) q

end Rota

section calada

open Prog

variable {α β ρ : Type} {r : Rota} {u : Sessao}

theorem Rota.Calada.pode {l : World → Evento} {w : World → World} (h : r.Calada l w) (q : Fase) :
    (∀ s,r.Pode q s (l s) (w s)) ∧ ∀ s,q.segue (l s)=q :=
  ⟨fun s => .outra _ _ (h s).1 (h s).2,fun s => (h s).1 q⟩

theorem Rota.calada_leitura : r.Calada (fun _ => .consulta) id :=
  fun s => ⟨fun _ => rfl,.refl r s.db⟩

theorem calada_le {l : Db → Evento} (hl : ∀ d,∀ q : Fase,q.segue (l d)=q) (x : Db → α) :
    (le l x).Every r.Calada :=
  ⟨fun s => ⟨hl s.db,.refl r s.db⟩,fun _ => trivial⟩

theorem calada_ret (a : α) : (pure a : Req α).Every r.Calada := trivial

theorem calada_consulta (x : Db → α) : (consulta x).Every r.Calada :=
  calada_le (fun _ _ => rfl) x

theorem calada_carrega (x : Db → α) : (carrega x).Every r.Calada := calada_le (fun _ _ => rfl) x

theorem calada_timeNow : timeNow.Every r.Calada :=
  ⟨fun s => ⟨fun _ => rfl,.refl r s.db⟩,fun _ => trivial⟩

theorem calada_escreve {l : Db → Evento} {f : Db → Db} (hl : ∀ d,∀ q : Fase,q.segue (l d)=q)
    (h : ∀ d,r.Poupa d (f d)) : (escreve l f).Every r.Calada :=
  ⟨fun s => ⟨hl s.db,h s.db⟩,fun _ => trivial⟩

theorem calada_grava {f : Db → Db} (h : ∀ d,r.Poupa d (f d)) : (grava f).Every r.Calada :=
  calada_escreve (fun _ _ => rfl) h

theorem calada_authorize (u : Sessao) : (authorize u).Every r.Calada := by
  unfold authorize
  split <;> trivial

theorem calada_acha (x : Db → Option ρ) : (acha x).Every r.Calada :=
  (calada_consulta x).bind (fun _ => every_orRaise _ _)

theorem calada_setFila (i : Nat) : (FilasController.setFila i).Every r.Calada :=
  (calada_carrega _).bind (fun _ => every_orRaise _ _)

theorem calada_setColegiado (i : Nat) : (ColegiadosController.setColegiado i).Every r.Calada :=
  calada_acha _

theorem calada_comFiltros {achar : Req ρ} (ha : achar.Every r.Calada) (entrada : Bool)
    {acao : ρ → Req Resposta} (hf : ∀ x,(acao x).Every r.Calada) :
    (comFiltros achar entrada u acao).Every r.Calada := by
  refine ha.bind (fun x => ?_)
  split
  · trivial
  · exact (calada_authorize u).bind (fun _ => hf x)

theorem calada_mostra {achar : Req ρ} (ha : achar.Every r.Calada) (entrada : Bool) :
    (mostra achar entrada u).Every r.Calada := calada_comFiltros ha entrada (fun _ => trivial)

theorem calada_cria {insere : Db → Db} (h : (grava insere).Every r.Calada) (entrada : Bool)
    (valida : Db → Bool) (aviso : String) : (cria entrada u valida insere aviso).Every r.Calada := by
  refine calada_comFiltros (calada_ret ()) entrada (fun _ => (calada_consulta _).bind (fun ok => ?_))
  split
  · exact h.bind (fun _ => trivial)
  · trivial

theorem calada_atualiza {achar : Req ρ} (ha : achar.Every r.Calada) {escrita : ρ → Db → Db}
    (h : ∀ x,(grava (escrita x)).Every r.Calada) (entrada : Bool) (valida : ρ → Db → Bool)
    (aviso : String) : (atualiza achar entrada u valida escrita aviso).Every r.Calada := by
  refine calada_comFiltros ha entrada (fun x => (calada_consulta _).bind (fun ok => ?_))
  split
  · exact (h x).bind (fun _ => trivial)
  · trivial

theorem calada_apaga {achar : Req ρ} (ha : achar.Every r.Calada) {escrita : ρ → Db → Db}
    (h : ∀ x,(grava (escrita x)).Every r.Calada) (entrada : Bool) (aviso : String) :
    (apaga achar entrada u escrita aviso).Every r.Calada :=
  calada_comFiltros ha entrada (fun x => (h x).bind (fun _ => trivial))

end calada

section leitura

open Prog

variable {r : Rota}

/-! The routes that only read. -/

theorem calada_achaLinha (c : Recurso) (i : Nat) : (c.achaLinha i).Every r.Calada := by
  cases c with
  | alunos => exact (calada_acha _).bind (fun _ => trivial)
  | colegiados => exact (calada_setColegiado i).bind (fun _ => trivial)
  | filas => exact (calada_setFila i).bind (fun _ => trivial)
  | mesas => exact (calada_acha _).bind (fun _ => trivial)
  | rodadas => exact (calada_acha _).bind (fun _ => trivial)
  | vagas => exact (calada_acha _).bind (fun _ => trivial)

theorem calada_index (c : Recurso) (s : Sessao) : (c.index s).Every r.Calada := by
  cases c with
  | vagas =>
    exact calada_comFiltros (calada_ret ()) false (fun _ =>
      (calada_consulta _).bind (fun _ => (every_orRaise _ _).bind (fun _ => trivial)))
  | _ => exact calada_mostra (calada_ret ()) _

theorem calada_ultimaVaga (f : Option Nat) : (Mesa.ultimaVaga f).Every r.Calada :=
  (calada_consulta _).bind (fun _ => every_orRaise _ _)

theorem calada_primeiraVaga (f : Option Nat) : (Mesa.primeiraVaga f).Every r.Calada :=
  (calada_consulta _).bind (fun _ => every_orRaise _ _)

theorem calada_procuraVaga (a : Aluno) (fs : List Fila) :
    (a.procuraVaga fs).Every r.Calada := by
  induction fs with
  | nil => trivial
  | cons f fs ih =>
    refine (calada_le (fun _ _ => rfl) _).bind (fun achou => ?_)
    split
    · exact (calada_consulta _).bind (fun _ => trivial)
    · exact ih

theorem calada_proximaVaga (a : Aluno) : a.proximaVaga.Every r.Calada :=
  (calada_le (fun _ _ => rfl) _).bind
    (fun _ => (calada_consulta _).bind (calada_procuraVaga a))

theorem calada_somaFilas (fs : List Fila) (soma : Int) :
    (Aluno.somaFilas fs soma).Every r.Calada := by
  induction fs generalizing soma with
  | nil => trivial
  | cons f fs ih =>
    exact (calada_ultimaVaga _).bind (fun _ => (every_orRaise _ _).bind (fun _ => ih _))

theorem calada_posicaoTotal (a : Aluno) : a.posicaoTotal.Every r.Calada := by
  refine (calada_proximaVaga a).bind (fun x => ?_)
  split
  · trivial
  · split
    · trivial
    · refine (calada_consulta _).bind (fun _ => (calada_consulta _).bind (fun _ => ?_))
      exact (calada_somaFilas _ _).bind (fun _ => (every_orRaise _ _).bind (fun _ => trivial))

theorem calada_posicaoAluno (m : Option String) :
    (TelaController.posicaoAluno m).Every r.Calada := by
  refine (calada_consulta _).bind (fun aluno => ?_)
  split
  · trivial
  · rename_i a
    refine (calada_proximaVaga a).bind (fun vaga => (calada_posicaoTotal a).bind (fun lugar => ?_))
    split
    · have ht : (TelaController.tempoEstimado vaga lugar).Every r.Calada := by
        refine (every_orRaise _ _).bind (fun x => (every_orRaise _ _).bind (fun t => ?_))
        split <;> trivial
      exact ht.bind (fun _ => trivial)
    · trivial

end leitura

section escrita

open Prog

variable {r : Rota}

/-! The enrolment, the import and the forms. -/

theorem calada_jaNaFila (v : Vaga) (f : Fila) : (TelaController.jaNaFila v f).Every r.Calada := by
  unfold TelaController.jaNaFila
  split
  · trivial
  · refine (every_orRaise _ _).bind (fun p => (every_orRaise _ _).bind (fun t => ?_))
    split <;> trivial

theorem calada_create (hr : r.mexeVagas=true) (a : Aluno) (f : Option Nat) :
    (Vaga.create a f).Every r.Calada := by
  refine (calada_consulta _).bind (fun fila => ?_)
  cases fila with
  | none => exact (calada_le (fun _ _ => rfl) _).bind (fun _ => trivial)
  | some f =>
    refine (calada_consulta _).bind (fun n => calada_timeNow.bind (fun t => ?_))
    have hi : (escreve (fun d => .cria a.id (some f.id) (some d.vagas.next))
        (fun d => d.insereVaga a.id (some f.id) n t)).Every r.Calada :=
      calada_escreve (fun _ _ => rfl) (fun _ => .comVagas hr _)
    exact hi.bind (fun _ => trivial)

theorem calada_inscreveMatricula (hr : r.mexeVagas=true) (m : Option String) :
    (TelaController.inscreveMatricula m).Every r.Calada := by
  refine (calada_consulta _).bind (fun aluno => ?_)
  cases aluno with
  | none => trivial
  | some a =>
    dsimp only
    split
    · trivial
    · refine (calada_consulta _).bind (fun emGrupo => ?_)
      split
      · trivial
      · refine (calada_consulta _).bind (fun g => ?_)
        cases g with
        | none => trivial
        | some g =>
          refine (calada_proximaVaga a).bind (fun vaga => ?_)
          cases vaga with
          | some x => exact calada_jaNaFila x.1 x.2
          | none => exact (calada_create hr a _).bind (fun _ => trivial)

theorem calada_inscrever (hr : r.mexeVagas=true) (s : Sessao) (m : Option String) :
    (TelaController.inscrever s m).Every r.Calada := by
  refine (calada_consulta _).bind (fun rodada => (every_orRaise _ _).bind (fun d => ?_))
  split
  · exact calada_inscreveMatricula hr m
  · split
    · trivial
    · split
      · exact calada_inscreveMatricula hr m
      · trivial

/-- A block of statements that do not show is one statement that does not show. -/
theorem calada_transacao {α : Type} {p : Req α} (hp : p.Every r.Calada) :
    (transacao p).Every r.Calada := by
  refine ⟨fun s => ?_,fun s => ?_⟩
  · have h := hp.exec_rel (fun s t => r.Poupa s.db t.db) (fun s => .refl r s.db)
      (fun _ _ _ h h' => h.trans h') (fun _ _ h s => (h s).2) s
    refine ⟨fun _ => rfl,?_⟩
    dsimp only
    cases (p.exec s).result with
    | ok a => exact h
    | error e => exact .refl r s.db
  · dsimp only
    cases (p.exec s).result <;> trivial

namespace ImporterController

theorem calada_importaAluno (grupo : Option Grupo) (colegiado : Option Colegiado) (m n : String) :
    (importaAluno grupo colegiado m n).Every r.Calada := by
  have ha : (alunoDaLinha m colegiado).Every r.Calada := by
    refine (calada_consulta _).bind (fun aluno => ?_)
    cases aluno with
    | some a => trivial
    | none =>
      refine (every_orRaise _ _).bind (fun c => (calada_consulta _).bind (fun n => ?_))
      exact (calada_grava (fun _ => .comAlunos (fun _ => Table.keys_subset_insert _ _ _))).bind
        (fun _ => (calada_acha _).bind (fun _ => trivial))
  refine ha.bind (fun x => (calada_consulta _).bind (fun ok => ?_))
  have hg : (if ok then grava (fun d => ativaAluno d x.1.id n) else pure () : Req Unit).Every
      r.Calada := by
    split
    · exact calada_grava (fun _ => .comAlunos (fun _ => Table.keys_subset_modify _ _ _ _))
    · trivial
  refine hg.bind (fun _ => ?_)
  refine Prog.Every.bind ?_ (fun _ => trivial)
  cases grupo with
  | none => trivial
  | some g =>
    simp only [poeNoGrupo]
    split
    · exact calada_grava (fun _ => .comAlunos (fun _ => List.Subset.refl _))
    · trivial

theorem calada_importaLinhas (grupo : Option Grupo) (colegiado : Option Colegiado)
    (ls : List (List Char)) (x : String × Nat) :
    (ls.foldlM (importaLinha grupo colegiado) x).Every r.Calada := by
  induction ls generalizing x with
  | nil => trivial
  | cons l ls ih =>
    rw [List.foldlM_cons]
    refine Prog.Every.bind ?_ (fun x => ih x)
    unfold importaLinha
    split
    · trivial
    · split
      · trivial
      · exact (calada_importaAluno _ _ _ _).bind (fun _ => trivial)

theorem calada_import (s : Sessao) (t : String) (g c : Option Nat) :
    (import_ s t g c).Every r.Calada := by
  have hfind : ∀ {ρ : Type} (q : Nat → Db → Option ρ) (i : Option Nat),
      (achaOpcional q i).Every r.Calada := by
    intro ρ q i
    cases i with
    | none => trivial
    | some i => exact (calada_acha _).bind (fun _ => trivial)
  refine (calada_authorize s).bind (fun _ => (hfind _ g).bind (fun g => (hfind _ c).bind
    (fun c => Prog.Every.bind ?_ (fun _ => trivial))))
  have hr : (removeAlunos g).Every r.Calada := by
    cases g with
    | none => trivial
    | some g =>
      exact (calada_consulta _).bind (fun _ => (calada_grava (fun _ => .comAlunos (fun _ => List.Subset.refl _))).bind
        (fun _ => trivial))
  exact hr.bind (fun _ => (calada_transacao (calada_importaLinhas g c _ _)).bind
    (fun _ => trivial))

end ImporterController

theorem calada_vagasCreate (u : Sessao) (p : VagaParams) :
    (VagasController.create u p).Every (Rota.vagasCreate u p).Calada := by
  refine calada_comFiltros (calada_ret ()) true (fun _ => (calada_consulta _).bind (fun ok => ?_))
  split
  · refine calada_timeNow.bind (fun t => (calada_consulta _).bind (fun n => ?_))
    refine Prog.Every.bind (calada_grava (fun _ => .comVagas rfl _)) (fun _ => ?_)
    refine (calada_acha _).bind (fun v => ?_)
    exact (calada_grava (fun _ => .comVagas rfl _)).bind (fun _ => trivial)
  · trivial

theorem calada_vagasUpdate (u : Sessao) (i : Nat) (p : VagaParams) :
    (VagasController.update u i p).Every (Rota.vagasUpdate u i p).Calada := by
  refine calada_comFiltros (calada_acha _) true (fun v => (calada_consulta _).bind (fun ok => ?_))
  split
  · refine Prog.Every.bind (calada_grava (fun _ => .comVagas rfl _)) (fun _ => ?_)
    exact Prog.Every.bind (calada_grava (fun _ => .comVagas rfl _)) (fun _ => trivial)
  · trivial

theorem calada_vagasDestroy (u : Sessao) (i : Nat) :
    (VagasController.destroy u i).Every (Rota.vagasDestroy u i).Calada := by
  refine calada_comFiltros (calada_acha _) true (fun v => (calada_consulta _).bind (fun a => ?_))
  refine (every_orRaise _ _).bind (fun _ => (calada_acha _).bind (fun v => ?_))
  exact Prog.Every.bind (calada_grava (fun _ => .comVagas rfl _)) (fun _ => trivial)

theorem calada_mesasCreate (u : Sessao) (p : MesaParams) :
    (MesasController.create u p).Every (Rota.mesasCreate u p).Calada := by
  unfold MesasController.create MesasController.aceitaVaga
  split
  · trivial
  · split
    · refine (calada_authorize u).bind (fun _ => calada_timeNow.bind (fun t => ?_))
      exact Prog.Every.bind (calada_grava (fun _ => .comMesas rfl _)) (fun _ => trivial)
    · trivial

theorem calada_mesasUpdate (u : Sessao) (i : Nat) (p : MesaParams) :
    (MesasController.update u i p).Every (Rota.mesasUpdate u i p).Calada := by
  refine calada_comFiltros (calada_acha _) true (fun m => ?_)
  unfold MesasController.aceitaVaga
  split
  · refine calada_timeNow.bind (fun t => ?_)
    exact Prog.Every.bind (calada_grava (fun _ => .comMesas rfl _)) (fun _ => trivial)
  · trivial

theorem calada_filasCreate (u : Sessao) (p : FilaParams) :
    (FilasController.create u p).Every (Rota.filasCreate u p).Calada := by
  refine calada_comFiltros (calada_ret ()) false (fun _ => (calada_consulta _).bind (fun ok => ?_))
  split
  · unfold FilasController.criaFila
    split
    · trivial
    · refine (calada_consulta _).bind (fun n => ?_)
      refine Prog.Every.bind (calada_grava (fun _ => .comFilas rfl _)) (fun _ => ?_)
      refine (calada_consulta _).bind (fun v => ?_)
      cases v <;> trivial
  · trivial

theorem calada_filasUpdate {p : FilaParams} (h : ∀ f d,r.Poupa d (d.atualizaFila f p)) (u : Sessao)
    (i : Nat) : (FilasController.update u i p).Every r.Calada := by
  refine calada_comFiltros (calada_setFila i) false (fun f => (calada_consulta _).bind (fun ok => ?_))
  split
  · unfold FilasController.gravaFila
    split
    · trivial
    · exact Prog.Every.bind (calada_grava (fun d => h f d)) (fun _ => trivial)
  · trivial

theorem calada_filasDestroy (u : Sessao) (i : Nat) :
    (FilasController.destroy u i).Every (Rota.filasDestroy u i).Calada := by
  refine calada_comFiltros (calada_setFila i) false (fun f => (calada_acha _).bind (fun f => ?_))
  exact Prog.Every.bind (calada_grava (fun _ => .comFilas rfl _)) (fun _ => trivial)

/-- The other columns of the filas. -/
theorem Core.map_find_ativaFila {β : Type} (π : FilaBase → β)
    (hπ : ∀ (g : FilaBase) b,π { g with ativo := b }=π g) (k : Core) (i : Nat) (b : Option Bool)
    (f : Nat) : ((k.ativaFila i b).filas.find f).map π=(k.filas.find f).map π := by
  unfold Core.ativaFila
  rw [Table.find_modify,Option.map_map]
  congr 1
  funext g
  simp only [Function.comp_apply]
  split_ifs
  · exact hπ g b
  · rfl

/-- The form that only switches a fila on or off moves no pointer and renames nothing. -/
theorem Rota.Poupa.ativa (f : Fila) (b : Option Bool) (d : Db) :
    r.Poupa d (d.atualizaFila f { ativo := some b }) := by
  refine { Rota.Poupa.refl r d with ponteiro := ?_, codigos := ?_ }
  · intro _
    rw [Db.core_atualizaAtivo]
    exact funext (d.core.map_find_ativaFila FilaBase.posicao (fun _ _ => rfl) f.id b)
  · intro _
    rw [Db.core_atualizaAtivo]
    exact funext (d.core.map_find_ativaFila FilaBase.codigo (fun _ _ => rfl) f.id b)

end escrita

section chamada

open Prog

variable {α : Type} {r : Rota}

/-! The calls. -/

theorem Rota.segue_bind {β : Type} {p : Req β} {f : β → Req α} {q : Fase} (hp : p.Every r.Calada)
    (hq : q≠.sentada) (hf : ∀ a,r.Segue (f a) q) : r.Segue (p >>= f) q := by
  unfold Rota.Segue at hf ⊢
  exact Follows.every_bind hp (fun _ _ h => h.pode q) hq hf

theorem Rota.segue_calada {p : Req α} {q : Fase} (hp : p.Every r.Calada) (hq : q≠.sentada) :
    r.Segue p q := by
  have h : r.Segue (p >>= Prog.ret) q := Rota.segue_bind hp hq (fun _ => hq)
  rwa [Prog.bind_ret] at h

theorem calada_updateFila (i : Option Nat) (g : Estatisticas → Estatisticas) :
    (grava (fun d => d.updateFila i g)).Every r.Calada :=
  calada_grava (fun d => .of_core (d.core_updateFila i g))

theorem calada_leFila (f : Option Nat) : (Mesa.leFila f).Every r.Calada :=
  (calada_consulta _).bind (fun _ => every_orRaise _ _)

namespace Mesa

theorem calada_contaPessoas (v : Vaga) : (contaPessoas v).Every r.Calada := by
  refine (calada_ultimaVaga _).bind (fun _ => (every_orRaise _ _).bind (fun _ =>
    (every_orRaise _ _).bind (fun _ => ?_)))
  refine (calada_updateFila _ _).bind (fun _ => (calada_updateFila _ _).bind (fun _ => ?_))
  exact (calada_ultimaVaga _).bind (fun _ => (calada_updateFila _ _).bind (fun _ => trivial))

theorem calada_mede (v : Vaga) (npat : Int) (nptt : Option Int) :
    (mede v npat nptt).Every r.Calada := by
  unfold mede
  split
  · refine (calada_leFila _).bind (fun f => ?_)
    split
    · refine calada_timeNow.bind (fun _ => (calada_updateFila _ _).bind (fun _ => ?_))
      refine (calada_leFila _).bind (fun _ => (every_orRaise _ _).bind (fun _ => ?_))
      exact (calada_leFila _).bind (fun _ => (every_orRaise _ _).bind
        (fun _ => calada_updateFila _ _))
    · trivial
  · trivial

theorem calada_abreMedicao (v : Vaga) (npat : Int) (nptt : Option Int) :
    (abreMedicao v npat nptt).Every r.Calada := by
  unfold abreMedicao
  split
  · exact (calada_updateFila _ _).bind (fun _ => calada_timeNow.bind
      (fun _ => calada_updateFila _ _))
  · trivial

theorem calada_fechaMedicao (v : Vaga) (npat : Int) (nptt : Option Int) :
    (fechaMedicao v npat nptt).Every r.Calada := by
  unfold fechaMedicao
  split
  · exact calada_updateFila _ _
  · trivial

theorem calada_somaTempos (todas : List Vaga) (n : Nat) : (somaTempos todas n).Every r.Calada := by
  unfold somaTempos
  generalize (0 : Int)=soma
  induction List.range n generalizing soma with
  | nil => trivial
  | cons a as ih =>
    rw [List.foldlM_cons]
    refine Prog.Every.bind ?_ (fun t => ih t)
    exact (every_orRaise _ _).bind (fun _ => (every_orRaise _ _).bind (fun _ => trivial))

theorem calada_calculaTempoMedio (v : Vaga) : (calculaTempoMedio v).Every r.Calada := by
  refine (calada_consulta _).bind (fun _ => (calada_consulta _).bind (fun _ =>
    (calada_somaTempos _ _).bind (fun _ => (calada_consulta _).bind (fun n => ?_))))
  split
  · trivial
  · exact calada_updateFila _ _

/-- Up to the desk a call shows nothing. -/
theorem calada_registra (vaga : Option Vaga) : (registra vaga).Every r.Calada := by
  have hv : ∀ p g,(grava (fun d => d.updateVagas p g)).Every r.Calada := fun _ _ =>
    calada_grava (fun d => .of_core (d.core_updateVagas _ _))
  cases vaga with
  | none => trivial
  | some v =>
    refine (calada_timeNow.bind (fun _ => hv _ _)).bind (fun _ => ?_)
    refine (calada_contaPessoas v).bind (fun x => ?_)
    refine (calada_timeNow.bind (fun _ => hv _ _)).bind (fun _ => ?_)
    refine (calada_abreMedicao v _ _).bind (fun _ => (calada_mede v _ _).bind (fun _ =>
      (calada_fechaMedicao v _ _).bind (fun _ => ?_)))
    refine Prog.Every.bind (p := calculaLambda v _) ?_ (fun _ => ?_)
    · exact (calada_ultimaVaga _).bind (fun _ => (calada_primeiraVaga _).bind (fun _ =>
        (every_orRaise _ _).bind (fun _ => calada_updateFila _ _)))
    · refine Prog.Every.bind (p := calculaMi v) ?_ (fun _ => calada_calculaTempoMedio v)
      exact (calada_leFila _).bind (fun _ => (every_orRaise _ _).bind
        (fun _ => calada_updateFila _ _))

end Mesa

/-- The desk of the session is written last, and then only the payload is left. -/
theorem segue_associa (v : Option Vaga) {f : Unit → Req α} {q : Fase} (hq : q=.livre ∨ q=.movida)
    (hf : ∀ q : Fase,r.Segue (f ()) q) :
    r.Segue (Mesa.associaVagaAMesa v r.sessao.mesa >>= f) q := by
  have hn : q≠.sentada := by rcases hq with rfl | rfl <;> decide
  rw [Mesa.associaVagaAMesa,bind_assoc]
  apply Rota.segue_bind (Mesa.calada_registra v) hn
  intro _
  rw [Mesa.ocupaMesa,bind_assoc]
  have hread : (consulta (fun d => r.sessao.mesa.bind d.mesas.find)).Every r.Calada :=
    calada_consulta _
  refine ⟨(hread.1.pode q).1,fun s => ?_⟩
  -- the row found is that of the session's desk
  dsimp only
  cases hm : r.sessao.mesa.bind s.db.mesas.find with
  | none => exact hf _
  | some m =>
    obtain ⟨i,hi,hmi⟩ := Option.bind_eq_some_iff.mp hm
    have hid : m.id=i := Table.key_of_find hmi
    have hc : r.Segue (timeNow >>= fun t => escreve (fun _ => .associa m.id (v.map (·.id)))
        (fun d => d.ocupa m (v.map (·.id)) t) >>= f) q := by
      apply Rota.segue_bind calada_timeNow hn
      intro t
      exact ⟨fun s => .associa m _ t hq (hid ▸ hi),fun _ => hf _⟩
    exact hc

/-- The payload is what the desks hold when it is read. -/
theorem segue_notifica {f : Unit → Req α} (q : Fase) (hf : (f ()).Every r.Calada) :
    r.Segue (notifica >>= f) q :=
  ⟨fun _ => .difunde,fun _ => Rota.segue_calada (q := .avisada) hf (by decide)⟩

theorem segue_chamaProximo (fila : Fila) {f : Unit → Req α} (hf : ∀ q : Fase,r.Segue (f ()) q) :
    r.Segue (fila.chamaProximo r.sessao.mesa r.sentido >>= f) .livre := by
  rw [Fila.chamaProximo,bind_assoc]
  refine ⟨fun s => .incrementa fila.id rfl,fun _ => ?_⟩
  have hrest : r.Segue ((Fila.vagaAtual (fila.incrementada r.sentido) >>= fun v =>
      Mesa.associaVagaAMesa v r.sessao.mesa) >>= f) .movida := by
    rw [bind_assoc]
    exact Rota.segue_bind (calada_consulta _) (by decide) (fun v => segue_associa v (.inr rfl) hf)
  exact hrest

theorem segue_filasProximo (u : Sessao) (i : Nat) :
    (Rota.requisicao (.filasProximo u i)).Segue (FilasController.proximo u i) .livre := by
  apply Rota.segue_bind (calada_setFila i) (by decide)
  intro fila
  apply Rota.segue_bind (calada_authorize u) (by decide)
  intro _
  apply Rota.segue_bind (calada_consulta _) (by decide)
  intro n
  have hn : ∀ q : Fase,(Rota.requisicao (.filasProximo u i)).Segue
      (notifica >>= fun _ => pure (Resposta.redireciona none)) q :=
    fun q => segue_notifica q trivial
  unfold FilasController.chama
  split
  · exact segue_associa (r := .requisicao (.filasProximo u i)) none (.inl rfl) hn
  · exact segue_chamaProximo (r := .requisicao (.filasProximo u i)) fila hn

theorem segue_filasAnterior (u : Sessao) (i : Nat) :
    (Rota.requisicao (.filasAnterior u i)).Segue (FilasController.anterior u i) .livre := by
  apply Rota.segue_bind (calada_setFila i) (by decide)
  intro fila
  apply Rota.segue_bind (calada_authorize u) (by decide)
  intro _
  exact segue_chamaProximo (r := .requisicao (.filasAnterior u i)) fila
    (fun q => segue_notifica q trivial)

theorem calada_proximaFilaNaoVazia (c : Nat) :
    (Colegiado.proximaFilaNaoVazia c).Every r.Calada := by
  refine (calada_carrega _).bind (fun fs => ?_)
  induction fs with
  | nil => trivial
  | cons f fs ih =>
    refine (calada_consulta _).bind (fun n => ?_)
    split
    · trivial
    · exact ih

theorem segue_colegiadosProximo (u : Sessao) (c : Nat) :
    (Rota.requisicao (.colegiadosProximo u c)).Segue (ColegiadosController.proximo u c) .livre := by
  have hfim : ∀ q : Fase,(Rota.requisicao (.colegiadosProximo u c)).Segue
      (notifica >>= fun _ => pure (Resposta.redireciona none)) q :=
    fun q => segue_notifica q trivial
  -- an occupied desk is emptied, an empty one left alone
  have hvazia : ∀ mesa,(Rota.requisicao (.colegiadosProximo u c)).Segue
      (ColegiadosController.esvazia mesa u >>= fun _ => pure (Resposta.redireciona none)) .livre := by
    intro mesa
    unfold ColegiadosController.esvazia
    rw [bind_assoc]
    apply Rota.segue_bind (calada_consulta _) (by decide)
    intro v
    cases v with
    | none => exact Rota.segue_calada trivial (by decide)
    | some v =>
      simp only [bind_assoc]
      exact segue_associa (r := .requisicao (.colegiadosProximo u c)) none (.inl rfl) hfim
  apply Rota.segue_bind (calada_setColegiado c) (by decide)
  intro col
  apply Rota.segue_bind (calada_authorize u) (by decide)
  intro _
  apply Rota.segue_bind (calada_consulta _) (by decide)
  intro mesa
  cases mesa with
  | none => exact Rota.segue_calada trivial (by decide)
  | some mesa =>
    apply Rota.segue_bind (calada_proximaFilaNaoVazia _) (by decide)
    intro fila
    cases fila with
    | none => exact hvazia mesa
    | some fila =>
      unfold ColegiadosController.atende ColegiadosController.chama
      rw [bind_assoc]
      apply Rota.segue_bind (calada_consulta _) (by decide)
      intro n
      split
      · exact hvazia mesa
      · rw [bind_assoc]
        exact segue_chamaProximo (r := .requisicao (.colegiadosProximo u c)) fila hfim

/-- The body of both `esvazia_mesa` actions behind their filters. -/
theorem segue_esvaziaMesa {ρ : Type} {achar : Req ρ} (ha : achar.Every r.Calada) :
    r.Segue (comFiltros achar false r.sessao (fun _ => esvaziaMesa r.sessao)) .livre := by
  apply Rota.segue_bind ha (by decide)
  intro x
  split
  · exact Rota.segue_calada trivial (by decide)
  · apply Rota.segue_bind (calada_authorize _) (by decide)
    intro _
    exact segue_associa none (.inl rfl) (fun q => segue_notifica q trivial)

/-- The five routes that call or empty a desk. -/
def Rota.chamaOuEsvazia : Rota → Bool
  | .requisicao (.filasProximo _ _) => true
  | .requisicao (.filasAnterior _ _) => true
  | .requisicao (.colegiadosProximo _ _) => true
  | .colegiadosEsvaziaMesa _ _ => true
  | .filasEsvaziaMesa _ _ => true
  | _ => false

/-- The others show neither a move nor a desk nor a payload. -/
theorem Rota.calada {r : Rota} (hr : r.chamaOuEsvazia=false) : r.prog.Every r.Calada := by
  cases r with
  | requisicao q =>
    cases q with
    | inscrever u m => exact calada_inscrever rfl u m
    | filasProximo u i => cases hr
    | filasAnterior u i => cases hr
    | filasUpdateAtivo u i b => exact calada_filasUpdate (fun f d => .ativa f b d) u i
    | colegiadosProximo u c => cases hr
  | index c u => exact calada_index c u
  | new c u => exact calada_mostra (calada_ret ()) _
  | show_ c u i => exact calada_mostra (calada_achaLinha c i) _
  | edit c u i => exact calada_mostra (calada_achaLinha c i) _
  | alunosCreate u p =>
    refine calada_cria ?_ _ _ _
    exact calada_grava (fun _ => .comAlunos (fun _ => Table.keys_subset_insert _ _ _))
  | alunosUpdate u i p =>
    refine calada_atualiza (calada_acha _) (fun _ => ?_) _ _ _
    exact calada_grava (fun _ => .comAlunos (fun _ => Table.keys_subset_modify _ _ _ _))
  | alunosDestroy u i =>
    refine calada_apaga (calada_acha _) (fun _ => ?_) _ _
    exact calada_grava (fun _ => .comAlunos nofun)
  | colegiadosCreate u p =>
    refine calada_cria ?_ _ _ _
    exact calada_grava (fun _ => .comColegiados _)
  | colegiadosUpdate u i p =>
    refine calada_atualiza (calada_setColegiado i) (fun _ => ?_) _ _ _
    exact calada_grava (fun _ => .comColegiados _)
  | colegiadosDestroy u i =>
    refine calada_apaga (calada_setColegiado i) (fun _ => ?_) _ _
    exact calada_grava (fun _ => .comColegiados _)
  | colegiadosAnterior u i => exact calada_comFiltros (calada_setColegiado i) _ (fun _ => trivial)
  | colegiadosEsvaziaMesa u i => cases hr
  | filasCreate u p => exact calada_filasCreate u p
  | filasUpdate u i p => exact calada_filasUpdate (fun _ _ => .comFilas rfl _) u i
  | filasDestroy u i => exact calada_filasDestroy u i
  | filasEsvaziaMesa u i => cases hr
  | filasGeraEstatisticasTela u i =>
    exact FilasController.every_geraEstatisticasTela Rota.calada_leitura u i
  | filasGeraEstatisticasArquivo u i =>
    exact FilasController.every_geraEstatisticasArquivo Rota.calada_leitura u i
  | mesasCreate u p => exact calada_mesasCreate u p
  | mesasUpdate u i p => exact calada_mesasUpdate u i p
  | mesasDestroy u i =>
    refine calada_apaga (calada_acha _) (fun _ => ?_) _ _
    exact calada_grava (fun _ => .comMesas rfl _)
  | mesasEscolher u i => exact calada_comFiltros (calada_acha _) _ (fun _ => trivial)
  | mesasRemoverSelecao u i =>
    cases i with
    | none => exact calada_comFiltros (calada_ret ()) _ (fun _ => trivial)
    | some i => exact calada_comFiltros (calada_acha _) _ (fun _ => trivial)
  | rodadasCreate u p =>
    refine calada_cria ?_ _ _ _
    exact calada_grava (fun _ => .comRodadas (fun _ => Table.keys_subset_insert _ _ _))
  | rodadasUpdate u i p =>
    refine calada_atualiza (calada_acha _) (fun _ => ?_) _ _ _
    exact calada_grava (fun _ => .comRodadas (fun _ => Table.keys_subset_modify _ _ _ _))
  | rodadasDestroy u i =>
    refine calada_apaga (calada_acha _) (fun _ => ?_) _ _
    exact calada_grava (fun _ => .comRodadas nofun)
  | vagasCreate u p => exact calada_vagasCreate u p
  | vagasUpdate u i p => exact calada_vagasUpdate u i p
  | vagasDestroy u i => exact calada_vagasDestroy u i
  | telaHome u => trivial
  | telaIndex u => trivial
  | telaDados u => trivial
  | telaPosicaoAluno u m => exact calada_posicaoAluno m
  | importerIndex u => exact calada_mostra (calada_ret ()) _
  | importerImport u t g c => exact ImporterController.calada_import u t g c

/-- Every route of the application keeps to its protocol, whatever runs beside it. -/
theorem Rota.segue (r : Rota) : r.Segue r.prog .livre := by
  cases hr : r.chamaOuEsvazia with
  | false => exact Rota.segue_calada (Rota.calada hr) (by decide)
  | true =>
    cases r with
    | requisicao q =>
      cases q with
      | filasProximo u i => exact segue_filasProximo u i
      | filasAnterior u i => exact segue_filasAnterior u i
      | colegiadosProximo u c => exact segue_colegiadosProximo u c
      | _ => cases hr
    | colegiadosEsvaziaMesa u i =>
      exact segue_esvaziaMesa (r := .colegiadosEsvaziaMesa u i) (calada_setColegiado i)
    | filasEsvaziaMesa u i =>
      exact segue_esvaziaMesa (r := .filasEsvaziaMesa u i) (calada_acha _)
    | _ => cases hr

end chamada

end Sisfila
