import Sisfila.Framework.References
import Sisfila.Routes.Effects

namespace Sisfila

namespace Core

/-- The six references of the tables that no foreign key guards. -/
structure Integra (k : Core) : Prop where
  mesaVaga : Refers Mesa.vagaId k.mesas k.vagas
  vagaAluno : Refers VagaBase.alunoId k.vagas k.alunos
  vagaFila : Refers VagaBase.filaId k.vagas k.filas
  grupoFila : Refers Grupo.filaId k.grupos k.filas
  alunoColegiado : Refers Aluno.colegiadoId k.alunos k.colegiados
  filaColegiado : Refers FilaBase.colegiadoId k.filas k.colegiados

namespace Integra

variable {k : Core}

/-! The writes of the queue. -/

/-- A write to the filas that keeps their keys and their colegiados. -/
theorem filas (h : k.Integra) {t : Table FilaBase} (hk : t.keys=k.filas.keys)
    (hc : Refers FilaBase.colegiadoId t k.colegiados) : { k with filas := t }.Integra :=
  { h with
    vagaFila := h.vagaFila.of_keys hk
    grupoFila := h.grupoFila.of_keys hk
    filaColegiado := hc }

theorem incrementa (h : k.Integra) (i : Nat) (n : Int) : (k.incrementa i n).Integra :=
  h.filas (Table.keys_modify _ _ _ _) (h.filaColegiado.modify_of_eq _ _ _ (fun _ => rfl))

theorem ativaFila (h : k.Integra) (i : Nat) (b : Option Bool) : (k.ativaFila i b).Integra :=
  h.filas (Table.keys_modify _ _ _ _) (h.filaColegiado.modify_of_eq _ _ _ (fun _ => rfl))

theorem ocupa (h : k.Integra) (m : Mesa) {v : Option Nat} (hv : ∀ i ∈ v,i ∈ k.vagas.keys)
    (t : ℚ) : (k.ocupa m v t).Integra := { h with mesaVaga := refere_ocupa h.mesaVaga m hv t }

theorem insereVaga (h : k.Integra) {a f : Nat} (ha : a ∈ k.alunos.keys) (hf : f ∈ k.filas.keys)
    (n : Nat) (t : ℚ) : (k.insereVaga a f n t).Integra := by
  refine { h with
    mesaVaga := h.mesaVaga.of_insert (fun _ => rfl)
    vagaAluno := h.vagaAluno.insert (fun _ => rfl) ?_
    vagaFila := h.vagaFila.insert (fun _ => rfl) ?_ }
  · intro i hi
    rw [← Option.some.inj hi]
    exact ha
  · intro i hi
    rw [← Option.some.inj hi]
    exact hf

theorem chama (h : k.Integra) {f : FilaBase} {n : Int} {mesa : Option Nat} {ok : Bool}
    {es : List Evento} {k' : Core} (hc : k.Chama f n mesa ok es k') : k'.Integra := by
  cases hc with
  | falha => exact h.incrementa f.id n
  | semMesa => exact h.incrementa f.id n
  | feita m t _ =>
    exact (h.incrementa f.id n).ocupa m (refere_vagaEm (k := k)) t

theorem esvazia (h : k.Integra) {mesa : Option Nat} {es : List Evento} {k' : Core}
    (he : k.Esvazia mesa es k') : k'.Integra := by
  cases he with
  | nada => exact h
  | feita m t _ => exact h.ocupa m (by simp) t

/-- No request of the queue breaks a reference. -/
theorem passo (h : k.Integra) {r : Requisicao} {ok : Bool} {es : List Evento} {k' : Core}
    (hp : k.Passo r ok es k') : k'.Integra := by
  cases hp with
  | recusa => exact h
  | naoInscreve => exact h
  | inscreve s m a g f t ha hm hg hgf hf hv =>
    exact h.insereVaga (List.mem_map_of_mem ha) (Table.mem_keys_of_find hf) _ t
  | filasFim s f hf hn he => exact h.esvazia he
  | filasProximo s f hf hn hc => exact h.chama hc
  | filasAnterior s f hf hc => exact h.chama hc
  | edita => exact h
  | ativa s i b => exact h.ativaFila i b
  | semMesa => exact h
  | colegiadosFim s c m hm hf he => exact h.esvazia he
  | colegiadosProximo s c m f hm hf hc => exact h.chama hc

/-! The writes of the resource controllers. -/

theorem atualizaAluno (h : k.Integra) (i : Nat) (p : AlunoParams) :
    (k.atualizaAluno i p).Integra :=
  { h with
    vagaAluno := h.vagaAluno.of_keys (Table.keys_modify _ i p.atribui (fun _ => rfl))
    alunoColegiado := h.alunoColegiado.modify_of_eq i p.atribui (fun _ => rfl) (fun _ => rfl) }

theorem insereColegiado (h : k.Integra) (p : ColegiadoParams) : (k.insereColegiado p).Integra :=
  { h with
    alunoColegiado := h.alunoColegiado.of_insert (fun _ => rfl)
    filaColegiado := h.filaColegiado.of_insert (fun _ => rfl) }

theorem atualizaColegiado (h : k.Integra) (i : Nat) (p : ColegiadoParams) :
    (k.atualizaColegiado i p).Integra :=
  { h with
    alunoColegiado := h.alunoColegiado.of_keys (Table.keys_modify _ i p.atribui (fun _ => rfl))
    filaColegiado := h.filaColegiado.of_keys (Table.keys_modify _ i p.atribui (fun _ => rfl)) }

theorem atualizaFila (h : k.Integra) (f : FilaBase) (p : FilaParams) :
    (k.atualizaFila f p).Integra := by
  have hc : Refers FilaBase.colegiadoId (k.filas.modify f.id p.atribuiBase (fun _ => rfl))
      k.colegiados := h.filaColegiado.modify_of_eq _ _ _ (fun _ => rfl)
  unfold Core.atualizaFila
  cases p.prioridade with
  | none => exact h.filas (Table.keys_modify _ _ _ _) hc
  | some q =>
    refine h.filas ?_ (hc.moveTo (fun _ _ => rfl) _ _ q)
    exact (Table.keys_moveTo _ _ q _).trans (Table.keys_modify _ _ _ _)

theorem insereMesa (h : k.Integra) (p : MesaParams) (t : ℚ) : (k.insereMesa p t).Integra := by
  refine { h with mesaVaga := h.mesaVaga.insert (fun _ => rfl) ?_ }
  intro i hi
  simp [MesaParams.atribui] at hi

theorem atualizaMesa (h : k.Integra) (i : Nat) (p : MesaParams) (t : ℚ) :
    (k.atualizaMesa i p t).Integra := by
  refine { h with mesaVaga := h.mesaVaga.modify i _ (p.key_atualiza t) ?_ }
  intro m j hj
  -- the only value the form can give is NULL
  have hm : (p.atualiza t m).vagaId=m.vagaId ∨ (p.atualiza t m).vagaId=none := by
    unfold MesaParams.atualiza
    split
    · exact Or.inl rfl
    · by_cases hv : p.vaga=some none
      · exact Or.inr (by simp [MesaParams.atribui,hv])
      · exact Or.inl (by simp [MesaParams.atribui,hv])
  rcases hm with hm | hm
  · exact Or.inl (hm ▸ hj)
  · rw [hm] at hj
    cases hj

theorem apagaMesa (h : k.Integra) (i : Nat) : (k.apagaMesa i).Integra :=
  { h with mesaVaga := h.mesaVaga.delete i }

/-- The form gives a vaga another aluno only if that aluno exists. -/
theorem atualizaVaga (h : k.Integra) (v : VagaBase) {p : VagaParams}
    (hv : k.vagaValida (p.atribuiBase v)=true) : (k.atualizaVaga v p).Integra := by
  obtain ⟨ha,-⟩ := Bool.and_eq_true_iff.mp hv
  refine { h with
    mesaVaga := h.mesaVaga.of_keys ((Table.keys_moveTo _ _ _ _).trans
      (Table.keys_modify _ v.id p.atribuiBase (fun _ => rfl)))
    vagaAluno := Refers.moveTo (fun _ _ => rfl) ?_ _ _ _
    vagaFila := (h.vagaFila.modify_of_eq v.id p.atribuiBase (fun _ => rfl) (fun _ => rfl)).moveTo
      (fun _ _ => rfl) _ _ _ }
  refine h.vagaAluno.modify v.id p.atribuiBase (fun _ => rfl) ?_
  intro w i hi
  cases hp : p.alunoId with
  | none => exact Or.inl (by simpa [VagaParams.atribuiBase,hp] using hi)
  | some a =>
    simp only [VagaParams.atribuiBase,hp,Option.getD_some] at ha hi
    obtain ⟨x,hx⟩ := Option.isSome_iff_exists.mp ha
    obtain ⟨j,hj,hx⟩ := Option.bind_eq_some_iff.mp hx
    rw [hi] at hj
    rw [Option.some.inj hj]
    exact Or.inr (Table.mem_keys_of_find hx)

theorem apagaAluno (h : k.Integra) {i : Nat} (hi : ∀ v ∈ k.vagas.rows,v.alunoId≠some i) :
    (k.apagaAluno i).Integra :=
  { h with
    vagaAluno := h.vagaAluno.of_filter (Table.keys_delete _ _) hi
    alunoColegiado := h.alunoColegiado.delete i }

theorem apagaColegiado (h : k.Integra) {i : Nat} (ha : ∀ a ∈ k.alunos.rows,a.colegiadoId≠some i)
    (hf : ∀ f ∈ k.filas.rows,f.colegiadoId≠some i) : (k.apagaColegiado i).Integra :=
  { h with
    alunoColegiado := h.alunoColegiado.of_filter (Table.keys_delete _ _) ha
    filaColegiado := h.filaColegiado.of_filter (Table.keys_delete _ _) hf }

theorem apagaFila (h : k.Integra) {f : FilaBase} (hv : ∀ v ∈ k.vagas.rows,v.filaId≠some f.id)
    (hg : ∀ g ∈ k.grupos.rows,g.filaId≠some f.id) : (k.apagaFila f).Integra :=
  { h with
    vagaFila := h.vagaFila.of_filter (Table.keys_remove _ _ _) hv
    grupoFila := h.grupoFila.of_filter (Table.keys_remove _ _ _) hg
    filaColegiado := h.filaColegiado.remove (fun _ _ => rfl) _ _ }

theorem apagaVaga (h : k.Integra) {v : VagaBase} (hm : ∀ m ∈ k.mesas.rows,m.vagaId≠some v.id) :
    (k.apagaVaga v).Integra :=
  { h with
    mesaVaga := h.mesaVaga.of_filter (Table.keys_remove _ _ _) hm
    vagaAluno := h.vagaAluno.remove (fun _ _ => rfl) _ _
    vagaFila := h.vagaFila.remove (fun _ _ => rfl) _ _ }

end Integra

end Core

/-- A superadmin's destroy names no row that another row still refers to. -/
def Rota.semReferencia (k : Core) : Rota → Bool
  | .alunosDestroy u i => decide (Ability.manageAll u=true →
      ∀ v ∈ k.vagas.rows,v.alunoId≠some i)
  | .colegiadosDestroy u i => decide (Ability.manageAll u=true →
      (∀ a ∈ k.alunos.rows,a.colegiadoId≠some i) ∧ ∀ f ∈ k.filas.rows,f.colegiadoId≠some i)
  | .filasDestroy u i => decide (Ability.manageAll u=true →
      (∀ v ∈ k.vagas.rows,v.filaId≠some i) ∧ ∀ g ∈ k.grupos.rows,g.filaId≠some i)
  | .vagasDestroy u i => decide (Ability.manageAll u=true → ∀ m ∈ k.mesas.rows,m.vagaId≠some i)
  | _ => true

/-- Creates and updates are validated or write no reference; the destroys are neither. -/
theorem Core.Muda.integra {k k' : Core} {r : Rota} (h : k.Muda r k') (hk : k.Integra)
    (hs : Ability.manageAll r.sessao=true) (hr : r.semReferencia k=true) : k'.Integra := by
  cases h with
  | nada => exact hk
  | requisicao r hp => exact hk.passo hp
  | filasEsvaziaMesa s i he => exact hk.esvazia he
  | colegiadosEsvaziaMesa s i he => exact hk.esvazia he
  | alunosUpdate s p a ha => exact hk.atualizaAluno a.id p
  | alunosDestroy s a ha => exact hk.apagaAluno (of_decide_eq_true hr hs)
  | colegiadosCreate s p => exact hk.insereColegiado p
  | colegiadosUpdate s p c hc => exact hk.atualizaColegiado c.id p
  | colegiadosDestroy s c hc =>
    obtain ⟨halunos,hfilas⟩ := of_decide_eq_true hr hs
    exact hk.apagaColegiado halunos hfilas
  | filasUpdate s p f hf => exact hk.atualizaFila f p
  | filasDestroy s f hf =>
    obtain ⟨hvagas,hgrupos⟩ := of_decide_eq_true hr hs
    exact hk.apagaFila hvagas hgrupos
  | mesasCreate s p t => exact hk.insereMesa p t
  | mesasUpdate s p m t hm => exact hk.atualizaMesa m.id p t
  | mesasDestroy s m hm => exact hk.apagaMesa m.id
  | rodadas r rs => exact { hk with }
  | vagasUpdate s p v hv hp => exact hk.atualizaVaga v hp
  | vagasDestroy s v hv ha => exact hk.apagaVaga (of_decide_eq_true hr hs)

/-- Any route but the import, with no superadmin's destroy of a row still referred to. -/
def semReferencias (s : World) (r : Rota) (_ : Outcome Evento World Erro Resposta) : Prop :=
  r.importa=false ∧ r.semReferencia s.db.core=true

instance (s : World) (r : Rota) (o : Outcome Evento World Erro Resposta) :
    Decidable (semReferencias s r o) := inferInstanceAs (Decidable (_ ∧ _))

/-- Without foreign keys the references hold as long as every destroyed row is one that nothing
refers to. -/
theorem integra_semReferencias {s₀ s : World} (h₀ : s₀.db.core.Integra)
    (h : Runs Rota.prog semReferencias s₀ s) : s.db.core.Integra := by
  refine h.invariant (fun s => s.db.core.Integra) h₀ ?_
  intro s r hi hr
  refine r.mantem s hi hr.1 ?_ ?_
  · exact fun _ _ _ _ _ hp => hi.passo hp
  · exact fun _ hs hm => hm.integra hi hs hr.2

theorem integra_cenario : (runAll Rota.prog (Cenario.world Cenario.nova Table.empty)
    [.requisicao (Cenario.inscreve "a"),.alunosDestroy (Cenario.mesa 1) 2]).db.core.Integra := by
  have h₀ : (Cenario.world Cenario.nova Table.empty).db.core.Integra :=
    ⟨by decide,by decide,by decide,by decide,by decide,by decide⟩
  exact integra_semReferencias h₀ (Runs.start.append _ (by decide +kernel))

/-- A fila is destroyed while a grupo leads to it and a vaga waits in it. -/
theorem filasDestroy_quebra :
    let s₀ := Cenario.world Cenario.nova Table.empty
    let s := runAll Rota.prog s₀
      [.requisicao (Cenario.inscreve "a"),.filasDestroy (Cenario.mesa 1) 1]
    s₀.db.core.Integra ∧ s.db.core.vagas.rows.map VagaBase.filaId=[some 1] ∧
      s.db.core.grupos.rows.map Grupo.filaId=[some 1] ∧ s.db.core.filas.keys=[] ∧
      ¬s.db.core.Integra := by
  refine ⟨⟨by decide,by decide,by decide,by decide,by decide,by decide⟩,by decide +kernel,
    by decide +kernel,by decide +kernel,fun h => ?_⟩
  have hg := h.grupoFila
  revert hg
  decide +kernel

end Sisfila
