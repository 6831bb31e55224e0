import Mathlib.Order.Monotone.Basic
import Sisfila.Calls.Counters

namespace Sisfila

/-! Requests read the clock forward. -/

variable {α β : Type}

/-- `t` has taken some readings of the clock of `s`. -/
def World.Antes (s t : World) : Prop := ∃ n,t.clock=fun m => s.clock (m+n)

namespace World.Antes

variable {s t u : World}

theorem refl (s : World) : s.Antes s := ⟨0,rfl⟩

theorem trans (h : s.Antes t) (h' : t.Antes u) : s.Antes u := by
  obtain ⟨n,hn⟩ := h
  obtain ⟨k,hk⟩ := h'
  refine ⟨k+n,?_⟩
  funext m
  simp [hk,hn,Nat.add_assoc]

theorem monotone (h : s.Antes t) (hs : Monotone s.clock) : Monotone t.clock := by
  obtain ⟨n,hn⟩ := h
  intro a b hab
  rw [hn]
  exact hs (Nat.add_le_add_right hab n)

theorem clock_le (h : s.Antes t) (hs : Monotone s.clock) : s.clock 0 ≤ t.clock 0 := by
  obtain ⟨n,hn⟩ := h
  rw [hn]
  exact hs (Nat.zero_le _)

end World.Antes

/-- The program takes readings of the clock in their order. -/
def Adianta (p : Req α) : Prop := ∀ s : World,s.Antes (p.exec s).state

namespace Adianta

theorem bind {p : Req α} {f : α → Req β} (hp : Adianta p) (hf : ∀ a,Adianta (f a)) :
    Adianta (p >>= f) := by
  intro s
  rw [Prog.exec_bind,Outcome.andThen]
  cases hr : (p.exec s).result with
  | error e => exact hp s
  | ok a => exact (hp s).trans (hf a (p.exec s).state)

theorem reads {p : Req α} {r : Db → Except Erro α} (hp : Reads p r) : Adianta p := by
  intro s
  obtain ⟨log,hx,-⟩ := hp s
  exact ⟨0,by rw [hx]; rfl⟩

theorem ret (a : α) : Adianta (pure a : Req α) := fun _ => ⟨0,rfl⟩

theorem raise (e : Erro) : Adianta (.raise e : Req α) := fun _ => ⟨0,rfl⟩

theorem consulta (q : Db → α) : Adianta (Sisfila.consulta q) := fun _ => ⟨0,rfl⟩

theorem le (l : Db → Evento) (q : Db → α) : Adianta (Sisfila.le l q) := fun _ => ⟨0,rfl⟩

theorem escreve (l : Db → Evento) (f : Db → Db) : Adianta (Sisfila.escreve l f) := fun _ => ⟨0,rfl⟩

theorem timeNow : Adianta Sisfila.timeNow := fun _ => ⟨1,rfl⟩

theorem orRaise (e : Erro) (o : Option α) : Adianta (Sisfila.orRaise e o) := by
  cases o with
  | none => exact raise e
  | some a => exact ret a

theorem authorize (u : Sessao) : Adianta (Sisfila.authorize u) := by
  unfold Sisfila.authorize
  split_ifs
  · exact ret ()
  · exact raise _

theorem of_every {p : Req α} (hp : p.Every (fun _ w => ∀ s : World,s.Antes (w s))) : Adianta p :=
  hp.exec_rel World.Antes World.Antes.refl (fun _ _ _ h h' => h.trans h') (fun _ _ h s => h s)

end Adianta

theorem leve_relogio :
    Leve (fun _ _ => True) (fun _ w => ∀ s : World,s.Antes (w s)) where
  le _ _ := fun _ => ⟨0,rfl⟩
  relogio := fun _ => ⟨1,rfl⟩
  fila _ _ _ := fun _ => ⟨0,rfl⟩

namespace Adianta

theorem ocupaMesa (v : Option Vaga) (mesa : Option Nat) : Adianta (Mesa.ocupaMesa v mesa) := by
  refine (consulta _).bind (fun o => ?_)
  cases o with
  | none => exact ret ()
  | some m => exact timeNow.bind (fun _ => escreve _ _)

theorem medeChamada (v : Vaga) (mesa : Option Nat) (npat : Int) (nptt : Option Int) :
    Adianta (Mesa.medeChamada v mesa npat nptt) := by
  have hS := leve_relogio
  have ht : ∀ {γ : Type} (_ : γ),True := fun _ => trivial
  refine (of_every (Mesa.every_abreMedicao hS v _ _ ht ht)).bind (fun _ => ?_)
  refine (of_every (Mesa.every_mede hS v _ _ ht ht)).bind (fun _ => ?_)
  refine (of_every (Mesa.every_fechaMedicao hS v _ _ ht)).bind (fun _ => ?_)
  refine (of_every (Mesa.every_calculaLambda hS v _ ht)).bind (fun _ => ?_)
  refine (of_every (Mesa.every_calculaMi hS v ht)).bind (fun _ => ?_)
  exact (of_every (Mesa.every_calculaTempoMedio hS v ht)).bind (fun _ => ocupaMesa (some v) mesa)

theorem associaVagaAMesa (v : Option Vaga) (mesa : Option Nat) :
    Adianta (Mesa.associaVagaAMesa v mesa) := by
  cases v with
  | none => exact ocupaMesa none mesa
  | some v =>
    have ht : ∀ {γ : Type} (_ : γ),True := fun _ => trivial
    rw [Mesa.associaVagaAMesa_some]
    refine (timeNow.bind (fun _ => escreve _ _)).bind (fun _ => ?_)
    refine (of_every (Mesa.every_contaPessoas leve_relogio v ht ht ht)).bind (fun x => ?_)
    exact (timeNow.bind (fun _ => escreve _ _)).bind (fun _ => medeChamada v mesa x.1 x.2)

theorem chamaProximo (f : Fila) (mesa : Option Nat) (n : Int) :
    Adianta (f.chamaProximo mesa n) :=
  (escreve _ _).bind (fun _ => (consulta _).bind (fun v => associaVagaAMesa v mesa))

theorem inscreve (a : Aluno) (g : Grupo) : Adianta (TelaController.inscreve a g) := by
  refine (reads (reads_proximaVaga a)).bind (fun x => ?_)
  rcases x with - | ⟨v,f⟩
  · refine Adianta.bind ((consulta _).bind (fun f => ?_)) (fun _ => ret _)
    cases f with
    | none => exact (le _ _).bind (fun _ => ret _)
    | some f =>
      exact (consulta _).bind (fun _ => timeNow.bind (fun _ => (escreve _ _).bind (fun _ => ret _)))
  · change Adianta (TelaController.jaNaFila v f)
    unfold TelaController.jaNaFila
    split_ifs
    · exact ret _
    · refine (orRaise _ _).bind (fun p => (orRaise _ _).bind (fun t => ?_))
      split
      · exact ret _
      · exact raise _

theorem inscreveMatricula (m : Option String) : Adianta (TelaController.inscreveMatricula m) := by
  refine (consulta _).bind (fun a => ?_)
  cases a with
  | none => exact ret _
  | some a =>
    dsimp only
    split_ifs
    · exact ret _
    · refine (consulta _).bind (fun b => ?_)
      split_ifs
      · exact ret _
      · refine (consulta _).bind (fun g => ?_)
        cases g with
        | none => exact ret _
        | some g => exact inscreve a g

theorem inscrever (u : Sessao) (m : Option String) : Adianta (TelaController.inscrever u m) := by
  refine (consulta _).bind (fun r => (orRaise _ _).bind (fun r => ?_))
  split_ifs
  · exact inscreveMatricula m
  · exact ret _
  · exact inscreveMatricula m
  · exact ret _

theorem esvazia (m : Mesa) (u : Sessao) : Adianta (ColegiadosController.esvazia m u) := by
  refine (consulta _).bind (fun v => ?_)
  cases v with
  | none => exact ret ()
  | some v => exact (associaVagaAMesa none u.mesa).bind (fun _ => reads reads_notifica)

theorem atende (f : Option Fila) (m : Mesa) (u : Sessao) :
    Adianta (ColegiadosController.atende f m u) := by
  cases f with
  | none => exact esvazia m u
  | some f =>
    refine (consulta _).bind (fun n => ?_)
    split_ifs
    · exact esvazia m u
    · exact (chamaProximo f u.mesa 1).bind (fun _ => reads reads_notifica)

/-- No request goes back in time. -/
theorem prog {r : Rota} (hr : r.chamaOuApaga=true) : Adianta r.prog := by
  cases r with
  | vagasDestroy u i =>
    refine (reads (Reads.acha _)).bind (fun v => ?_)
    split_ifs
    · exact ret _
    · refine (authorize u).bind (fun _ => (consulta _).bind (fun a => (orRaise _ a).bind
        (fun _ => (reads (Reads.acha _)).bind (fun w => ?_))))
      exact (escreve _ _).bind (fun _ => ret _)
  | requisicao q =>
    cases q with
    | inscrever u m => exact inscrever u m
    | filasUpdateAtivo u i b => simp [Rota.chamaOuApaga] at hr
    | filasProximo u i =>
      refine (reads (Reads.setFila i)).bind (fun f => (authorize u).bind (fun _ =>
        (consulta _).bind (fun n => ?_)))
      refine Adianta.bind ?_ (fun _ => reads (reads_notifica_pure _))
      unfold FilasController.chama
      split_ifs
      · exact associaVagaAMesa none u.mesa
      · exact chamaProximo f u.mesa 1
    | filasAnterior u i =>
      refine (reads (Reads.setFila i)).bind (fun f => (authorize u).bind (fun _ => ?_))
      exact (chamaProximo f u.mesa (-1)).bind (fun _ => reads (reads_notifica_pure _))
    | colegiadosProximo u c =>
      refine Adianta.bind ((consulta _).bind (fun c => orRaise _ c)) (fun g => ?_)
      refine (authorize u).bind (fun _ => (consulta _).bind (fun m => ?_))
      cases m with
      | none => exact ret _
      | some m =>
        exact (reads (reads_proximaFilaNaoVazia g.id)).bind (fun f => (atende f m u).bind
          (fun _ => ret _))
  | _ => simp [Rota.chamaOuApaga] at hr

end Adianta

end Sisfila
