import Sisfila.Queue.Run

namespace Sisfila

/-! What a call writes to the vagas. -/

theorem Db.find_updateVagas (d : Db) (p : VagaBase → Bool) (g : Chamada → Chamada) (j : Nat) :
    (d.updateVagas p g).vagas.find j=(d.vagas.find j).map (fun v =>
      if p v.toVagaBase && d.vagaValida v.toVagaBase
        then { v with toChamada := g v.toChamada } else v) :=
  d.vagas.find_map _ (by intro v; dsimp only; split <;> rfl) j

/-- Statements that leave every vaga but `i` alone. -/
def SoVaga (i : Nat) (_ : World → Evento) (w : World → World) : Prop :=
  ∀ s j,j≠i → (w s).db.vagas.find j=s.db.vagas.find j

theorem leve_soVaga (i : Nat) : Leve (fun _ _ => True) (SoVaga i) where
  le _ _ := fun _ _ _ => rfl
  relogio := fun _ _ _ => rfl
  fila j g _ := by
    intro s k _
    cases j <;> rfl

theorem soVaga_exec {α : Type} {i j : Nat} (hj : j≠i) {p : Req α} (hp : p.Every (SoVaga i))
    (s : World) : (p.exec s).state.db.vagas.find j=s.db.vagas.find j :=
  hp.exec_rel (fun a b => b.db.vagas.find j=a.db.vagas.find j) (fun _ => rfl)
    (fun _ _ _ hab hbc => hbc.trans hab) (fun _ _ h s => h s j hj) s

namespace Mesa

theorem soVaga_registraTempoNaFila (v : Vaga) : (registraTempoNaFila v).Every (SoVaga v.id) := by
  refine ⟨fun _ _ _ => rfl,fun t => ⟨?_,fun _ => trivial⟩⟩
  intro s j hj
  dsimp only
  rw [Db.find_updateVagas]
  cases hw : s.db.vagas.find j with
  | none => rfl
  | some w =>
    have hid : w.id=j := Table.key_of_find hw
    have hne : w.id≠v.id := by simpa [hid] using hj
    simp [hne]

theorem soVaga_ocupaMesa (i : Nat) (v : Option Vaga) (mesa : Option Nat) :
    (ocupaMesa v mesa).Every (SoVaga i) :=
  every_ocupaMesa (leve_soVaga i) v mesa (fun _ _ _ _ _ => rfl)

/-- What a call leaves of the other vagas: those of the same aluno at the same `posicao` get its
date. -/
theorem find_associaVagaAMesa (v : Vaga) (mesa : Option Nat) (s : World) {j : Nat} (hj : j≠v.id) :
    ((associaVagaAMesa (some v) mesa).exec s).state.db.vagas.find j=
      (s.db.vagas.find j).map (fun w =>
        if (w.alunoId==v.alunoId && w.posicao==v.posicao) && s.db.vagaValida w.toVagaBase
          then { w with dataChamada := some (s.clock 0) } else w) := by
  have hp : (registraEspera v >>= fun _ => ocupaMesa (some v) mesa).Every (SoVaga v.id) :=
    (every_registraEspera_of_leve (leve_soVaga v.id) (fun _ => trivial)
      (soVaga_registraTempoNaFila v)).bind
      (fun _ => soVaga_ocupaMesa v.id _ _)
  have hm := s.db.find_updateVagas (fun w => w.alunoId==v.alunoId && w.posicao==v.posicao)
    (fun c => { c with dataChamada := some (s.clock 0) }) j
  rw [associaVagaAMesa_marca,Prog.exec_bind]
  exact (soVaga_exec hj hp _).trans hm

end Mesa

/-- The vagas other than `v` keep the date of their call and their waiting time. -/
def Db.GuardaChamadas (d d' : Db) (v : Vaga) : Prop :=
  ∀ w ∈ d.vagas.rows,w.id≠v.id →
    (d'.vagas.find w.id).map (fun w => w.toChamada)=some w.toChamada

/-- The call of `v` leaves the history of the others as it was exactly if every other valid vaga of
the same aluno at the same `posicao`, in whatever fila, carried the time of the call already. -/
theorem associaVagaAMesa_guardaChamadas (v : Vaga) (mesa : Option Nat) (s : World) :
    s.db.GuardaChamadas ((Mesa.associaVagaAMesa (some v) mesa).exec s).state.db v ↔
      ∀ w ∈ s.db.vagas.rows,w.id≠v.id → w.alunoId=v.alunoId → w.posicao=v.posicao →
        s.db.vagaValida w.toVagaBase=true → w.dataChamada=some (s.clock 0) := by
  unfold Db.GuardaChamadas
  refine forall₃_congr (fun w hw hid => ?_)
  have hfind : s.db.vagas.find w.id=some w := Table.find_of_mem hw
  rw [Mesa.find_associaVagaAMesa v mesa s hid,hfind,Option.map_some,Option.map_some]
  by_cases hc : (w.alunoId==v.alunoId && w.posicao==v.posicao) &&
      s.db.vagaValida w.toVagaBase
  · rw [if_pos hc]
    simp only [Bool.and_eq_true,beq_iff_eq] at hc
    obtain ⟨⟨ha,hp⟩,hval⟩ := hc
    constructor
    · intro h _ _ _
      have hd := congrArg Chamada.dataChamada (Option.some.inj h)
      exact hd.symm
    · intro h
      have hd := h ha hp hval
      rw [← hd]
  · rw [if_neg hc]
    simp only [Bool.and_eq_true,beq_iff_eq,not_and] at hc
    refine iff_of_true rfl ?_
    intro ha hp hval
    exact absurd hval (hc ⟨ha,hp⟩)

/-- An aluno is first in two filas. The call in the second one overwrites the date of the first. -/
theorem associaVagaAMesa_regrava :
    let s : World := ⟨Cenario.db Cenario.duas Cenario.repetida,fun n => 1000+10*n⟩
    ∃ v ∈ s.db.vagas.rows,∃ w ∈ s.db.vagas.rows,v.id=2 ∧ w.id=1 ∧ w.filaId≠v.filaId ∧
      w.dataChamada=some 500 ∧
      (((Mesa.associaVagaAMesa (some v) (some 1)).exec s).state.db.vagas.find w.id).map
        (fun w => w.dataChamada)=some (some 1000) := by
  decide +kernel

end Sisfila
