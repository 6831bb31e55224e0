import Sisfila.Calls.Atomicity

namespace Sisfila

/-! What a call leaves however it ends: each block writes columns of its own. -/

variable {α β : Type}

namespace Yields

variable {p : Req α} {f : α → Req β} {t t' : World} {a : α}

theorem state_bind (hp : Yields p t a t') :
    ((p >>= f).exec t).state=((f a).exec t').state := by
  obtain ⟨hr,rfl⟩ := hp
  rw [Prog.exec_bind,Outcome.andThen,hr]

end Yields

/-- A program that completes has completed its first part. -/
theorem yields_of_ok_bind {p : Req α} {f : α → Req β} {t : World}
    (h : ((p >>= f).exec t).ok=true) :
    ∃ a t',Yields p t a t' ∧ ((f a).exec t').ok=true := by
  cases hr : (p.exec t).ok with
  | false => simp [ok_bind_false hr] at h
  | true =>
    obtain ⟨a,ha⟩ := (Outcome.ok_iff _).mp hr
    have hy : Yields p t a (p.exec t).state := ⟨ha,rfl⟩
    rw [hy.ok_bind] at h
    exact ⟨a,_,hy,h⟩

/-- What `π` shows of the statistics of fila `i`, beside its other columns. -/
def Db.mostra (π : Estatisticas → β) (d : Db) (i : Nat) : Option (FilaBase × β) :=
  (d.filas.find i).map (fun f => (f.toFilaBase,π f.toEstatisticas))

theorem Db.mostra_updateFila {π : Estatisticas → β} {g : Estatisticas → Estatisticas}
    (hg : ∀ e,π (g e)=π e) (d : Db) (j : Option Nat) :
    (d.updateFila j g).mostra π=d.mostra π := by
  cases j with
  | none => rfl
  | some j =>
    funext i
    simp only [mostra,updateFila,Table.find_modify,Option.map_map]
    congr 1
    funext f
    simp only [Function.comp_apply]
    split_ifs
    · simp [hg]
    · rfl
    · rfl

/-- Statements that write no vaga, no colegiado, and of the filas only what `π` does not show. -/
def Conserva (π : Estatisticas → β) (_ : World → Evento) (w : World → World) : Prop :=
  ∀ s,(w s).db.mostra π=s.db.mostra π ∧ (w s).db.vagas=s.db.vagas ∧
    (w s).db.colegiados=s.db.colegiados

theorem leve_conserva (π : Estatisticas → β) :
    Leve (fun _ g => ∀ e,π (g e)=π e) (Conserva π) where
  le _ _ := fun _ => ⟨rfl,rfl,rfl⟩
  relogio := fun _ => ⟨rfl,rfl,rfl⟩
  fila j g hg := by
    intro s
    refine ⟨s.db.mostra_updateFila hg j,?_,?_⟩ <;> cases j <;> rfl

theorem conserva_ocupaMesa (π : Estatisticas → β) (v : Option Vaga) (mesa : Option Nat) :
    (Mesa.ocupaMesa v mesa).Every (Conserva π) :=
  Mesa.every_ocupaMesa (leve_conserva π) v mesa (fun _ _ _ => ⟨rfl,rfl,rfl⟩)

/-- The view after a program that keeps `π`, also after one that raises. -/
theorem Ve.conserva {i : Nat} {x : Vista} {t : World} (h : Ve i x t) {π : Estatisticas → β}
    {p : Req α} (hp : p.Every (Conserva π)) :
    ∃ x',Ve i x' (p.exec t).state ∧ x'.vagas=x.vagas ∧ x'.valida=x.valida ∧
      x'.fila.toFilaBase=x.fila.toFilaBase ∧ π x'.fila.toEstatisticas=π x.fila.toEstatisticas := by
  obtain ⟨hm,hv,hc⟩ := hp.exec_rel (fun a b => b.db.mostra π=a.db.mostra π ∧
      b.db.vagas=a.db.vagas ∧ b.db.colegiados=a.db.colegiados) (fun _ => ⟨rfl,rfl,rfl⟩)
    (fun _ _ _ hab hbc => ⟨hbc.1.trans hab.1,hbc.2.1.trans hab.2.1,hbc.2.2.trans hab.2.2⟩)
    (fun _ _ h s => h s) t
  generalize (p.exec t).state=t' at *
  have hf : t.db.filas.find i=some x.fila := h.fila
  have hfi := congrFun hm i
  simp only [Db.mostra,hf,Option.map_some] at hfi
  obtain ⟨f,hf',he⟩ := Option.map_eq_some_iff.mp hfi
  obtain ⟨hb,hπ⟩ := Prod.mk.inj he
  refine ⟨⟨f,x.vagas,x.valida,t'.db.vagaValida,t'.clock⟩,⟨hf',?_,?_,rfl,rfl⟩,rfl,rfl,hb,hπ⟩
  · have hvs := h.vagas
    simp only [Db.vagasDe,hv] at hvs ⊢
    exact hvs
  · have hval := h.valida
    simp only [Db.filaValida,Db.colegiadoDe,hc,hb] at hval ⊢
    exact hval

namespace Mesa

/-- The rates, the mean wait and the desk. -/
def encerraChamada (vaga : Vaga) (idMesa : Option Nat) (nptt : Option Int) : Req Unit := do
  calculaLambda vaga nptt
  calculaMi vaga
  calculaTempoMedio vaga
  ocupaMesa (some vaga) idMesa

/-- What a call does once the waiting time is stored. -/
def medeChamada (vaga : Vaga) (idMesa : Option Nat) (npat : Int) (nptt : Option Int) :
    Req Unit := do
  abreMedicao vaga npat nptt
  mede vaga npat nptt
  fechaMedicao vaga npat nptt
  encerraChamada vaga idMesa nptt

theorem associaVagaAMesa_some (v : Vaga) (mesa : Option Nat) : associaVagaAMesa (some v) mesa=
    marcaChamada v >>= fun _ => contaPessoas v >>= fun x => registraTempoNaFila v >>=
      fun _ => medeChamada v mesa x.1 x.2 := by
  simp [associaVagaAMesa,registra,registraChamada,medeChamada,encerraChamada,bind_assoc]

theorem conserva_encerraChamada {π : Estatisticas → β}
    (hl : ∀ x e,π { e with lambda := x }=π e) (hm : ∀ x e,π { e with mi := x }=π e)
    (ht : ∀ x e,π { e with tempomedioespera := x }=π e) (v : Vaga) (mesa : Option Nat)
    (nptt : Option Int) : (encerraChamada v mesa nptt).Every (Conserva π) := by
  have hS := leve_conserva π
  refine (every_calculaLambda hS v _ hl).bind (fun _ => (every_calculaMi hS v hm).bind
    (fun _ => ?_))
  exact (every_calculaTempoMedio hS v ht).bind (fun _ => conserva_ocupaMesa π (some v) mesa)

variable {i : Nat} {x : Vista} {t : World} {v : Vaga}

/-- Up to there nothing raises, as long as the called vaga and the last one have their positions. -/
theorem state_associaVagaAMesa (h : Ve i x t) (hv : v.filaId=some i) {u : Vaga} {p total : Int}
    (hu : x.vagas.getLast?=some u) (ht : u.posicao=some total) (hp : v.posicao=some p)
    (mesa : Option Nat) : ∃ t',Ve i (vistaEntrada x v p total) t' ∧
      ((associaVagaAMesa (some v) mesa).exec t).state=
        ((medeChamada v mesa p (some total)).exec t').state := by
  have hlast := ultima_marcada x v
  rw [hu,Option.map_some] at hlast
  obtain ⟨w,hw,hwu⟩ := Option.map_eq_some_iff.mp hlast
  have hwp : w.posicao=some total := (congrArg VagaBase.posicao hwu).trans ht
  obtain ⟨t₁,h₁,hv₁⟩ := yields_marcaChamada (v := v) h
  obtain ⟨t₂,h₂,hv₂⟩ := yields_contaPessoas hv₁ hv hw hwp hp
  obtain ⟨t₃,h₃,hv₃⟩ := yields_registraTempoNaFila (v := v) hv₂
  refine ⟨t₃,hv₃,?_⟩
  rw [associaVagaAMesa_some,h₁.state_bind,h₂.state_bind,h₃.state_bind]

end Mesa

end Sisfila
