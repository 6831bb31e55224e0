import Sisfila.Queue.Execution

namespace Sisfila

/-- What the statistics of a call read and write: the fila, its vagas, which updates pass their
validation, and the clock. -/
structure Vista where
  fila : Fila
  vagas : List Vaga
  valida : Bool
  vagaValida : VagaBase → Bool
  clock : Nat → ℚ

namespace Vista

/-- `Fila.where(id: ...).update(...)` -/
def grava (x : Vista) (g : Estatisticas → Estatisticas) : Vista :=
  { x with
    fila := if x.valida then { x.fila with toEstatisticas := g x.fila.toEstatisticas } else x.fila }

/-- `Vaga.where(...).update(...)` -/
def marca (x : Vista) (p : VagaBase → Bool) (g : Chamada → Chamada) : Vista :=
  { x with
    vagas := x.vagas.map (fun v => if p v.toVagaBase && x.vagaValida v.toVagaBase
      then { v with toChamada := g v.toChamada } else v) }

/-- A reading of the clock. -/
def tique (x : Vista) : Vista := { x with clock := fun n => x.clock (n+1) }

@[simp] theorem grava_vagas (x : Vista) (g) : (x.grava g).vagas=x.vagas := rfl
@[simp] theorem grava_valida (x : Vista) (g) : (x.grava g).valida=x.valida := rfl
@[simp] theorem grava_vagaValida (x : Vista) (g) : (x.grava g).vagaValida=x.vagaValida := rfl
@[simp] theorem grava_clock (x : Vista) (g) : (x.grava g).clock=x.clock := rfl
@[simp] theorem marca_fila (x : Vista) (p g) : (x.marca p g).fila=x.fila := rfl
@[simp] theorem marca_valida (x : Vista) (p g) : (x.marca p g).valida=x.valida := rfl
@[simp] theorem marca_vagaValida (x : Vista) (p g) :
    (x.marca p g).vagaValida=x.vagaValida := rfl
@[simp] theorem marca_clock (x : Vista) (p g) : (x.marca p g).clock=x.clock := rfl
@[simp] theorem tique_fila (x : Vista) : x.tique.fila=x.fila := rfl
@[simp] theorem tique_vagas (x : Vista) : x.tique.vagas=x.vagas := rfl
@[simp] theorem tique_valida (x : Vista) : x.tique.valida=x.valida := rfl
@[simp] theorem tique_vagaValida (x : Vista) : x.tique.vagaValida=x.vagaValida := rfl
@[simp] theorem tique_clock (x : Vista) (n : Nat) : x.tique.clock n=x.clock (n+1) := rfl

theorem grava_estatisticas (x : Vista) (g : Estatisticas → Estatisticas) :
    (x.grava g).fila.toEstatisticas=
      if x.valida then g x.fila.toEstatisticas else x.fila.toEstatisticas := by
  unfold grava
  split_ifs <;> rfl

/-- Call times change neither positions nor dates of enrolment, nor whose vagas they are. -/
theorem marca_map_base (x : Vista) (p : VagaBase → Bool) (g : Chamada → Chamada) :
    (x.marca p g).vagas.map Vaga.toVagaBase=x.vagas.map Vaga.toVagaBase := by
  simp only [marca,List.map_map]
  refine List.map_congr_left ?_
  intro v _
  simp only [Function.comp_apply]
  split_ifs <;> rfl

end Vista

/-- The world `t` as seen from fila `i`. -/
structure Ve (i : Nat) (x : Vista) (t : World) : Prop where
  fila : t.db.filaDe (some i)=some x.fila
  vagas : t.db.vagasDe (some i)=x.vagas
  valida : t.db.filaValida x.fila.toFilaBase=x.valida
  vagaValida : t.db.vagaValida=x.vagaValida
  clock : t.clock=x.clock

namespace Ve

variable {i : Nat} {x : Vista} {t : World}

theorem timeNow (h : Ve i x t) : Ve i x.tique { t with clock := fun n => t.clock (n+1) } where
  fila := h.fila
  vagas := h.vagas
  valida := h.valida
  vagaValida := h.vagaValida
  clock := by simp [Vista.tique,h.clock]

theorem updateVagas (h : Ve i x t) (p : VagaBase → Bool) (g : Chamada → Chamada) :
    Ve i (x.marca p g) { t with db := t.db.updateVagas p g } where
  fila := h.fila
  vagas := by
    have hv := h.vagas
    have hf : ∀ v : Vaga,(if p v.toVagaBase && t.db.vagaValida v.toVagaBase then
        { v with toChamada := g v.toChamada } else v).filaId=v.filaId := by
      intro v
      split_ifs <;> rfl
    simp only [Vista.marca,← hv,Db.vagasDe,Db.updateVagas,Table.map_rows,List.filter_map,
      Function.comp_def,Db.naFila,hf,← h.vagaValida]
    rfl
  valida := h.valida
  vagaValida := h.vagaValida
  clock := h.clock

theorem updateFila (h : Ve i x t) (g : Estatisticas → Estatisticas) :
    Ve i (x.grava g) { t with db := t.db.updateFila (some i) g } where
  fila := by
    have hf : t.db.filas.find i=some x.fila := h.fila
    have hi : x.fila.id=i := Table.key_of_find hf
    simp only [Db.filaDe,Db.updateFila,Option.bind_some,Table.find_modify,hf,Option.map_some,
      Row.key_fila,hi,ite_true,h.valida]
    rfl
  vagas := h.vagas
  valida := by
    have hb : (x.grava g).fila.toFilaBase=x.fila.toFilaBase := by
      unfold Vista.grava
      split_ifs <;> rfl
    rw [hb]
    exact h.valida
  vagaValida := by
    rw [Vista.grava_vagaValida,← h.vagaValida]
    funext v
    have hs : ∀ j,((t.db.updateFila (some i) g).filas.find j).isSome=
        (t.db.filas.find j).isSome := by
      intro j
      simp [Db.updateFila,Table.find_modify]
    cases hv : v.filaId with
    | none => simp [Db.vagaValida,Db.filaDe,hv]
    | some j =>
      simp only [Db.vagaValida,Db.filaDe,hv,Option.bind_some,hs]
      rfl
  clock := h.clock

end Ve

/-- The program completes with `a` in the world `t'`. -/
def Yields {α : Type} (p : Req α) (t : World) (a : α) (t' : World) : Prop :=
  (p.exec t).result=.ok a ∧ (p.exec t).state=t'

namespace Yields

variable {α β : Type} {p : Req α} {f : α → Req β} {t t' t'' : World} {a : α} {b : β}

theorem bind (hp : Yields p t a t') (hf : Yields (f a) t' b t'') : Yields (p >>= f) t b t'' := by
  obtain ⟨hr,rfl⟩ := hp
  unfold Yields
  rw [Prog.exec_bind,Outcome.andThen,hr]
  exact hf

theorem ok_bind (hp : Yields p t a t') :
    ((p >>= f).exec t).ok=((f a).exec t').ok := by
  obtain ⟨hr,rfl⟩ := hp
  rw [Prog.exec_bind,Outcome.andThen,hr]
  rfl

end Yields

theorem ok_bind_false {α β : Type} {p : Req α} {f : α → Req β} {t : World}
    (h : (p.exec t).ok=false) : ((p >>= f).exec t).ok=false := by
  rw [Prog.exec_bind,Outcome.andThen]
  cases hr : (p.exec t).result with
  | error e => rfl
  | ok a => simp [Outcome.ok,hr] at h

end Sisfila
