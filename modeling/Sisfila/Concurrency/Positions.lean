import Sisfila.Concurrency.Requests
import Sisfila.Framework.Freshness
import Sisfila.Queue.Answers

namespace Sisfila

/-- The INSERT of a vaga of fila `f`. -/
def Evento.insereEm (f : Nat) : Evento → Bool
  | .cria _ (some g) (some _) => g==f
  | _ => false

section eventos

variable {ι : Type} [DecidableEq ι]

/-- The schedule lets a request insert only if nobody has inserted into the same fila since it read
the greatest `posicao`, two statements before. -/
def semInsercao (x : Obs ι Evento World) (i : ι) : Evento → Prop
  | .cria _ (some f) (some _) => ∀ e ∈ since i 2 x.trace,e.2.insereEm f=false
  | _ => True

instance (x : Obs ι Evento World) (i : ι) : (e : Evento) → Decidable (semInsercao x i e)
  | .cria _ (some f) (some _) =>
    inferInstanceAs (Decidable (∀ e ∈ since i 2 x.trace,e.2.insereEm f=false))
  | .cria _ none _ | .cria _ (some _) none | .consulta | .grava | .carrega | .incrementa _ _
  | .associa _ _ | .busca _ | .testa _ _ | .difunde _ => isTrue trivial

end eventos

namespace Positions

variable {ι : Type}

def vagas (f : Nat) (s : World) : List VagaBase := s.db.core.vagasDe f

/-- What request `i` may rely on: the vagas of a fila change only by an INSERT it can see. -/
abbrev Rely (i : ι) : Obs ι Evento World → Obs ι Evento World → Prop :=
  Watched Evento.insereEm vagas i

/-- No vaga of fila `f` is past `n`. -/
def Ate (k : Core) (f n : Nat) : Prop := ∀ v ∈ k.vagasDe f,∀ p ∈ v.posicao,p≤(n : Int)

/-- What a statement of a request does to the vagas: nothing, or an INSERT past all the others. -/
inductive Escrita (k : Core) : Evento → Core → Prop
  | nada (e : Evento) {k' : Core} (h : k'.vagas=k.vagas) : Escrita k e k'
  | insere (a f n v : Nat) (t : ℚ) (h : Ate k f n) :
      Escrita k (.cria a (some f) (some v)) (k.insereVaga a f n t)

def Guarantee (i : ι) (x y : Obs ι Evento World) : Prop :=
  ∃ e,y.trace=(i,e)::x.trace ∧ Escrita x.core e y.core

theorem Escrita.vagasDe {k k' : Core} {e : Evento} (h : Escrita k e k') {f : Nat}
    (hf : e.insereEm f=false) : k'.vagasDe f=k.vagasDe f := by
  cases h with
  | nada _ h =>
    unfold Core.vagasDe
    rw [h]
  | insere a g n v t _ =>
    rw [Core.vagasDe_insereVaga,if_neg]
    exact beq_eq_false_iff_ne.mp hf

/-- The others rely on no more than every statement gives. -/
theorem Guarantee.rely {i j : ι} (hij : i≠j) {x y : Obs ι Evento World} (h : Guarantee i x y) :
    Rely j x y := by
  obtain ⟨e,ht,hw⟩ := h
  exact Watched.of_step hij ht (fun f hf => hw.vagasDe hf)

/-- An INSERT past all the others takes a position nobody has. -/
theorem Escrita.posicoesUnicas {k k' : Core} {e : Evento} (h : Escrita k e k')
    (hk : k.PosicoesUnicas) : k'.PosicoesUnicas := by
  cases h with
  | nada _ h =>
    unfold Core.PosicoesUnicas
    rw [h]
    exact hk
  | insere a f n v t hn =>
    have hnew : ∀ v ∈ k.vagas.rows,v.filaId=some f → v.posicao≠some ((n+1 : Nat) : Int) := by
      intro v hv hvf hvp
      have hle := hn v (Core.mem_vagasDe.mpr ⟨hv,hvf⟩) _ hvp
      push_cast at hle
      omega
    intro v hv w hw hf hp hsf hsp
    rw [Core.rows_insereVaga,List.mem_append,List.mem_singleton] at hv hw
    rcases hv with hv | rfl <;> rcases hw with hw | rfl
    · exact hk v hv w hw hf hp hsf hsp
    · exact absurd hp (hnew v hv hf)
    · exact absurd hp.symm (hnew w hw hf.symm)
    · rfl

variable [DecidableEq ι] {i : ι}

/-- `fundo` was the greatest `posicao` of fila `f` when `i` read it, `n` statements ago. -/
abbrev Lida (i : ι) (f fundo n : Nat) : Obs ι Evento World → Prop :=
  Fresh Evento.insereEm vagas i f (fun vs => ∀ v ∈ vs,∀ p ∈ v.posicao,p≤(fundo : Int)) n

/-- A quiet statement of `i` moves the reading one statement further away. -/
theorem Lida.quieta {f fundo n : Nat} {x : Obs ι Evento World} (h : Lida i f fundo n x)
    {l : World → Evento} {w : World → World} (hw : Quieto l w) :
    Lida i f fundo (n+1) (x.push i l w) :=
  Fresh.push h (congrArg (fun k : Core => k.vagasDe f) (hw.2 x.state))

omit [DecidableEq ι] in
theorem Guarantee.quieta {x : Obs ι Evento World} {l : World → Evento} {w : World → World}
    (hw : Quieto l w) : Guarantee i x (x.push i l w) :=
  ⟨_,rfl,.nada _ (congrArg Core.vagas (hw.2 x.state))⟩

/-- A part of an enrolment, while the others do as they rely on each other to do. -/
abbrev Segue {α : Type} (i : ι) (A : Obs ι Evento World → Prop) (p : Req α)
    (B : α → Obs ι Evento World → Prop) : Prop :=
  Prog.Triple i semInsercao (Rely i) (Guarantee i) A p B

omit [DecidableEq ι] in
theorem stable_true : Prog.Stable (Rely i) (fun _ => True) := fun _ _ h _ => h

theorem segue_quieto {α : Type} {p : Req α} (hp : p.Every Quieto) :
    Segue i (fun _ => True) p (fun _ _ => True) :=
  Prog.Triple.of_every hp stable_true (fun _ _ _ hq _ => ⟨Guarantee.quieta hq,trivial⟩)

theorem segue_maiorPosicao (f : Nat) :
    Segue i (fun _ => True) (consulta (fun d => d.maiorPosicao (some f)))
      (fun fundo => Lida i f fundo 1) := by
  apply Prog.Triple.step stable_true (fun _ => Fresh.stable)
  intro x _ _
  have hq : Quieto (fun _ => Evento.consulta) id := ⟨fun _ => rfl,fun _ => rfl⟩
  refine ⟨Guarantee.quieta hq,Lida.quieta (Fresh.now ?_) hq⟩
  intro v hv p hp
  rw [vagas,Db.vagasDe_core] at hv
  obtain ⟨w,hw,rfl⟩ := List.mem_map.mp hv
  exact (x.state.db.maior_maiorPosicao (some f)).1 w hw p hp

theorem segue_timeNow (f fundo : Nat) :
    Segue i (Lida i f fundo 1) timeNow (fun _ => Lida i f fundo 2) := by
  apply Prog.Triple.step Fresh.stable (fun _ => Fresh.stable)
  intro x hx _
  have hq : Quieto (fun _ => Evento.consulta)
      (fun s : World => { s with clock := fun n => s.clock (n+1) }) := ⟨fun _ => rfl,fun _ => rfl⟩
  exact ⟨Guarantee.quieta hq,Lida.quieta hx hq⟩

/-- The INSERT, where the schedule allows it, is past all the vagas of the fila. -/
theorem segue_insere (a : Aluno) (f fundo : Nat) (t : ℚ) :
    Segue i (Lida i f fundo 2)
      (escreve (fun d => .cria a.id (some f) (some d.vagas.next))
        (fun d => d.insereVaga a.id (some f) fundo t)) (fun _ _ => True) := by
  apply Prog.Triple.step Fresh.stable (fun _ => stable_true)
  intro x hx hok
  have hk : (x.push i (fun s => .cria a.id (some f) (some s.db.vagas.next))
      (fun s => { s with db := s.db.insereVaga a.id (some f) fundo t })).core=
      x.core.insereVaga a.id f fundo t := Db.core_insereVaga _ _ _ _ _
  refine ⟨⟨_,rfl,?_⟩,trivial⟩
  rw [hk]
  exact .insere a.id f fundo _ t (hx hok)

theorem segue_create (a : Aluno) (f : Option Nat) :
    Segue i (fun _ => True) (Vaga.create a f) (fun _ _ => True) :=
  Vaga.triple_create (Watched.refl i) (segue_quieto (every_consulta _))
    (segue_quieto (every_le (fun _ => rfl) _)) (fun g => segue_maiorPosicao g.id)
    (fun g n => segue_timeNow g.id n) (fun g n t => segue_insere a g.id n t) (fun _ => stable_true)

/-- Up to the reading nothing has to be remembered. -/
def inscricao (i : ι) : Inscricao i semInsercao (Rely i) (Guarantee i) where
  inicio _ := True
  achado _ _ := True
  escolhida _ _ _ := True
  liberada _ _ _ := True
  respondida _ _ := True
  refl := Watched.refl i
  consulta _ := Guarantee.quieta ⟨fun _ => rfl,fun _ => rfl⟩
  inicio_consulta _ h := h
  achado_consulta _ _ h := h
  stable_inicio := stable_true
  stable_achado _ := stable_true
  stable_escolhida _ _ := stable_true
  stable_respondida _ := stable_true
  acha _ _ _ _ := trivial
  escolhe _ _ _ _ _ := trivial
  procura a _ := (segue_quieto a.every_proximaVaga).conseq (fun _ h => h) (fun _ _ h _ => h)
  nega _ _ _ := trivial
  cria a g := segue_create a g.filaId

end Positions

/-- Concurrent enrolments. If no other vaga of the fila is inserted between the reading of the
greatest `posicao` and the INSERT of a request, the vagas of each fila keep distinct positions. -/
theorem inscrever_posicoesUnicas {ι : Type} [DecidableEq ι] {s₀ : World}
    (h₀ : s₀.db.core.PosicoesUnicas) (rs : ι → Sessao × Option String)
    {c : Config ι Evento World Erro Resposta}
    (h : Config.Reach semInsercao
      (Config.start s₀ (fun i => TelaController.inscrever (rs i).1 (rs i).2)) c) :
    c.obs.core.PosicoesUnicas := by
  have hsafe : (Config.start s₀ (fun i => TelaController.inscrever (rs i).1 (rs i).2)).AllSafe
      semInsercao Positions.Rely Positions.Guarantee (fun _ _ _ => True) :=
    fun i => (Positions.inscricao i).inscrever _ _ _ trivial
  obtain ⟨_,hinv⟩ := hsafe.reach h (fun x => x.core.PosicoesUnicas) h₀ Watched.refl Watched.trans
    (fun i j hij x y hg => hg.rely hij)
    (fun i x y hx hg => by obtain ⟨e,-,hw⟩ := hg; exact hw.posicoesUnicas hx)
  exact hinv

namespace Positions

open Cenario

/-- Two alunos of one fila. -/
def pedido (b : Bool) : Sessao × Option String := (⟨none,none⟩,some (if b then "a" else "b"))

/-- Nobody is in the fila. -/
def inicio : Config Bool Evento World Erro Resposta :=
  Config.start (world medida Table.empty)
    (fun b => TelaController.inscrever (pedido b).1 (pedido b).2)

/-- One request enrols before the other reads the greatest `posicao`. -/
def emOrdem : Config Bool Evento World Erro Resposta :=
  inicio.fireAll (List.replicate 8 true++List.replicate 30 false++List.replicate 30 true)

/-- One request enrols between the reading and the INSERT of the other. -/
def atravessada : Config Bool Evento World Erro Resposta :=
  inicio.fireAll (List.replicate 9 true++List.replicate 30 false++List.replicate 30 true)

theorem posicoesUnicas_empty : (world medida Table.empty).db.core.PosicoesUnicas :=
  fun _ h => absurd h List.not_mem_nil

end Positions

theorem inscrever_posicoesUnicas_emOrdem :
    Positions.emOrdem.obs.core.vagas.rows.map (fun v => (v.alunoId,v.posicao))=
      [(some 2,some 1),(some 1,some 2)] ∧
    (∀ b,(Positions.emOrdem.pool b).returned) ∧ Positions.emOrdem.obs.core.PosicoesUnicas := by
  have hc : Config.Reach semInsercao Positions.inicio Positions.emOrdem :=
    Config.Reach.refl.fireAll _ (by decide +kernel)
  exact ⟨by decide +kernel,by decide +kernel,
    inscrever_posicoesUnicas Positions.posicoesUnicas_empty Positions.pedido hc⟩

/-- Both requests answer, and both alunos have `posicao` 1 in fila 1. -/
theorem inscrever_atravessada :
    (Cenario.world Cenario.medida Table.empty).db.core.PosicoesUnicas ∧
    Config.Reach (fun _ _ _ => True) Positions.inicio Positions.atravessada ∧
    (∀ b,(Positions.atravessada.pool b).returned) ∧
    Positions.atravessada.obs.core.vagas.rows.map (fun v => (v.alunoId,v.filaId,v.posicao))=
      [(some 2,some 1,some 1),(some 1,some 1,some 1)] ∧
    ¬Positions.atravessada.obs.core.PosicoesUnicas :=
  ⟨Positions.posicoesUnicas_empty,Config.reach_fireAll _ _,by decide +kernel,by decide +kernel,
    by decide +kernel⟩

end Sisfila
