import Sisfila.Routes.Effects

namespace Sisfila

namespace Core

variable {k : Core}

/-- No vaga sits at two desks. -/
def SemRepeticao (k : Core) : Prop :=
  ∀ a ∈ k.mesas.rows,∀ b ∈ k.mesas.rows,∀ i ∈ a.vagaId,b.vagaId=some i → a.id=b.id

instance (k : Core) : Decidable k.SemRepeticao :=
  inferInstanceAs (Decidable (∀ a ∈ k.mesas.rows,∀ b ∈ k.mesas.rows,∀ i ∈ a.vagaId,
    b.vagaId=some i → a.id=b.id))

/-- A vaga, if there is one, is at no desk but this one. -/
def ForaDasOutras (k : Core) (mesa : Option Nat) (v : Option VagaBase) : Prop :=
  ∀ w ∈ v,∀ m ∈ k.mesas.rows,m.vagaId=some w.id → mesa=some m.id

instance (k : Core) (mesa : Option Nat) (v : Option VagaBase) :
    Decidable (k.ForaDasOutras mesa v) :=
  inferInstanceAs (Decidable (∀ w ∈ v,∀ m ∈ k.mesas.rows,m.vagaId=some w.id → mesa=some m.id))

theorem SemRepeticao.ocupa (h : k.SemRepeticao) {m : Mesa} {v : Option Nat}
    (hv : ∀ i ∈ v,∀ b ∈ k.mesas.rows,b.vagaId=some i → b.id=m.id) (t : ℚ) :
    (k.ocupa m v t).SemRepeticao := by
  intro a' ha' b' hb' i hi hbi
  obtain ⟨a,ha,hai,hav⟩ := k.mem_mesas_ocupa ha'
  obtain ⟨b,hb,hbi',hbv⟩ := k.mem_mesas_ocupa hb'
  rw [hai,hbi']
  rcases hav with hav | ⟨ham,hav⟩ <;> rcases hbv with hbv | ⟨hbm,hbv⟩ <;>
    rw [hav] at hi <;> rw [hbv] at hbi
  · exact h a ha b hb i hi hbi
  · rw [hbm,hv i hbi a ha hi]
  · rw [ham,hv i hi b hb hbi]
  · rw [ham,hbm]

theorem id_of_mesa {mesa : Option Nat} {m : Mesa} (h : mesa.bind k.mesas.find=some m) :
    mesa=some m.id := by
  obtain ⟨i,hi,hm⟩ := Option.bind_eq_some_iff.mp h
  rw [hi,((k.mesas.find_eq_some_iff _ _).mp hm).2.symm]
  rfl

theorem SemRepeticao.chama (h : k.SemRepeticao) {f : FilaBase} {n : Int} {mesa : Option Nat}
    {ok : Bool} {es : List Evento} {k' : Core} (hc : k.Chama f n mesa ok es k')
    (hl : k.ForaDasOutras mesa (k.vagaEm f.id (f.posicao+n))) : k'.SemRepeticao := by
  cases hc with
  | falha => exact h
  | semMesa => exact h
  | feita m t hm =>
    refine SemRepeticao.ocupa (k := k.incrementa f.id n) h ?_ t
    intro i hi b hb hbi
    obtain ⟨w,hw,rfl⟩ := Option.map_eq_some_iff.mp hi
    have he := (hl w hw b hb hbi).symm.trans (id_of_mesa hm)
    exact Option.some.inj he

theorem SemRepeticao.esvazia (h : k.SemRepeticao) {mesa : Option Nat} {es : List Evento}
    {k' : Core} (he : k.Esvazia mesa es k') : k'.SemRepeticao := by
  cases he with
  | nada => exact h
  | feita m t hm => exact h.ocupa (by simp) t

theorem SemRepeticao.inscrever (h : k.SemRepeticao) {u : Sessao} {m : Option String} {ok : Bool}
    {es : List Evento} {k' : Core} (hp : k.Passo (.inscrever u m) ok es k') : k'.SemRepeticao := by
  cases hp <;> exact h

end Core

/-- `inscrever`, the calls and both `esvazia_mesa`. -/
def Rota.atende : Rota → Bool
  | .requisicao (.filasUpdateAtivo _ _ _) => false
  | .requisicao _ => true
  | .filasEsvaziaMesa _ _ => true
  | .colegiadosEsvaziaMesa _ _ => true
  | _ => false

/-- A superadmin's call moves the pointer to a vaga that no other desk is attending. -/
def Rota.livre (k : Core) : Rota → Bool
  | .requisicao (.filasProximo u i) => decide (Ability.manageAll u=true → ∀ f ∈ k.filas.find i,
      f.posicao≠((k.vagasDe f.id).length : Int) →
        k.ForaDasOutras u.mesa (k.vagaEm f.id (f.posicao+1)))
  | .requisicao (.filasAnterior u i) => decide (Ability.manageAll u=true → ∀ f ∈ k.filas.find i,
      k.ForaDasOutras u.mesa (k.vagaEm f.id (f.posicao+(-1))))
  | .requisicao (.colegiadosProximo u c) => decide (Ability.manageAll u=true →
      ∀ f ∈ k.proximaFila c,k.ForaDasOutras u.mesa (k.vagaEm f.id (f.posicao+1)))
  | _ => true

theorem Core.Passo.semRepeticao {k k' : Core} {r : Requisicao} {ok : Bool} {es : List Evento}
    (h : k.Passo r ok es k') (hk : k.SemRepeticao) (hs : Ability.manageAll r.sessao=true)
    (hr : (Rota.requisicao r).livre k=true) : k'.SemRepeticao := by
  cases h with
  | filasFim s f hf hn he => exact hk.esvazia he
  | filasProximo s f hf hn hc => exact hk.chama hc (of_decide_eq_true hr hs f hf hn)
  | filasAnterior s f hf hc => exact hk.chama hc (of_decide_eq_true hr hs f hf)
  | colegiadosFim s c m hm hf he => exact hk.esvazia he
  | colegiadosProximo s c m f hm hf hc => exact hk.chama hc (of_decide_eq_true hr hs f hf)
  | _ => exact hk

theorem Core.Muda.semRepeticao {k k' : Core} {r : Rota} (h : k.Muda r k') (hk : k.SemRepeticao)
    (hs : Ability.manageAll r.sessao=true) (hc : r.atende=true) (hr : r.livre k=true) :
    k'.SemRepeticao := by
  cases h with
  | nada => exact hk
  | rodadas => exact hk
  | requisicao r hp => exact hp.semRepeticao hk hs hr
  | filasEsvaziaMesa s i he => exact hk.esvazia he
  | colegiadosEsvaziaMesa s i he => exact hk.esvazia he
  | _ => cases hc

def livre (s : World) (r : Rota) (_ : Outcome Evento World Erro Resposta) : Prop :=
  r.atende=true ∧ r.livre s.db.core=true

instance (s : World) (r : Rota) (o : Outcome Evento World Erro Resposta) :
    Decidable (livre s r o) := inferInstanceAs (Decidable (_ ∧ _))

theorem semRepeticao_livre {s₀ s : World} (hm : ∀ m ∈ s₀.db.mesas.rows,m.vagaId=none)
    (h : Runs Rota.prog livre s₀ s) : s.db.core.SemRepeticao := by
  refine h.invariant (fun s => s.db.core.SemRepeticao) ?_ ?_
  · intro a ha b hb i hi
    rw [hm a ha] at hi
    cases hi
  · intro s r hi hr
    refine r.mantem s hi (Rota.importa_of (fun _ _ _ _ => rfl) hr.1) ?_ ?_
    · exact fun _ _ _ _ _ hp => hi.inscrever hp
    · exact fun _ hs hm => hm.semRepeticao hi hs hr.1 hr.2

/-! Without steps back no call meets a vaga that is at a desk. -/

namespace Core

variable {k : Core}

/-- What sits at a desk has been enrolled, and the pointer of its fila has reached it. -/
structure Chamadas (k : Core) : Prop where
  emitida : ∀ m ∈ k.mesas.rows,∀ i ∈ m.vagaId,i<k.vagas.next
  alcancada : ∀ m ∈ k.mesas.rows,∀ v ∈ k.vagas.rows,m.vagaId=some v.id →
    ∀ f ∈ k.filas.rows,v.filaId=some f.id → ∀ p ∈ v.posicao,p≤f.posicao

theorem Chamadas.avanca (h : k.Chamadas) (i : Nat) : (k.incrementa i 1).Chamadas := by
  refine ⟨h.emitida,fun m hm v hv hmv f hf hvf p hp => ?_⟩
  obtain ⟨g,hg,hid,-,-,-,hpos⟩ := k.mem_filas_incrementa hf
  rw [hid] at hvf
  have hle := h.alcancada m hm v hv hmv g hg hvf p hp
  rw [hpos]
  split_ifs <;> omega

theorem Chamadas.insereVaga (h : k.Chamadas) (a f n : Nat) (t : ℚ) :
    (k.insereVaga a f n t).Chamadas := by
  refine ⟨fun m hm i hi => Nat.lt_succ_of_lt (h.emitida m hm i hi),?_⟩
  intro m hm v hv hmv
  rw [rows_insereVaga,List.mem_append,List.mem_singleton] at hv
  rcases hv with hv | rfl
  · exact h.alcancada m hm v hv hmv
  · exact absurd (h.emitida m hm _ hmv) (lt_irrefl _)

theorem Chamadas.ocupa (h : k.Chamadas) (m : Mesa) {v : Option VagaBase} (t : ℚ)
    (hv : ∀ w ∈ v,w ∈ k.vagas.rows ∧ ∀ f ∈ k.filas.rows,w.filaId=some f.id →
      ∀ p ∈ w.posicao,p≤f.posicao) : (k.ocupa m (v.map (fun v => v.id)) t).Chamadas := by
  constructor
  · intro a' ha' i hi
    obtain ⟨a,ha,-,hav | ⟨-,hav⟩⟩ := k.mem_mesas_ocupa ha' <;> rw [hav] at hi
    · exact h.emitida a ha i hi
    · obtain ⟨w,hw,rfl⟩ := Option.map_eq_some_iff.mp hi
      exact k.vagas.below w (hv w hw).1
  · intro a' ha' x hx hax
    obtain ⟨a,ha,-,hav | ⟨-,hav⟩⟩ := k.mem_mesas_ocupa ha' <;> rw [hav] at hax
    · exact h.alcancada a ha x hx hax
    · obtain ⟨w,hw,hwx⟩ := Option.map_eq_some_iff.mp hax
      obtain rfl : w=x := k.vagas.key_injective (hv w hw).1 hx hwx
      exact (hv w hw).2

theorem Chamadas.chama (h : k.Chamadas) {f : FilaBase} (hf : k.filas.find f.id=some f)
    {mesa : Option Nat} {ok : Bool} {es : List Evento} {k' : Core}
    (hc : k.Chama f 1 mesa ok es k') : k'.Chamadas := by
  cases hc with
  | falha => exact h.avanca f.id
  | semMesa => exact h.avanca f.id
  | feita m t hm =>
    refine (h.avanca f.id).ocupa m t ?_
    intro w hw
    obtain ⟨hwr,hwf,hwp⟩ := mem_of_vagaEm hw
    refine ⟨hwr,fun g' hg' hwg p hp => ?_⟩
    obtain ⟨g,hg,hid,-,-,-,hpos⟩ := k.mem_filas_incrementa hg'
    have hgf : g.id=f.id := by
      rw [hwf,hid] at hwg
      exact (Option.some.inj hwg).symm
    obtain rfl : g=f :=
      k.filas.key_injective hg (Table.mem_of_find hf) hgf
    rw [hwp] at hp
    rw [hpos,if_pos rfl,← Option.some.inj hp]

theorem Chamadas.esvazia (h : k.Chamadas) {mesa : Option Nat} {es : List Evento} {k' : Core}
    (he : k.Esvazia mesa es k') : k'.Chamadas := by
  cases he with
  | nada => exact h
  | feita m t hm => exact h.ocupa (v := none) m t (by simp)

/-- The vaga after the pointer is at no desk. -/
theorem Chamadas.foraDasOutras (h : k.Chamadas) {f : FilaBase} (hf : k.filas.find f.id=some f)
    (mesa : Option Nat) : k.ForaDasOutras mesa (k.vagaEm f.id (f.posicao+1)) := by
  intro w hw m hm hmw
  obtain ⟨hwr,hwf,hwp⟩ := mem_of_vagaEm hw
  have hle := h.alcancada m hm w hwr hmw f (Table.mem_of_find hf) hwf _ hwp
  omega

end Core

/-- No superadmin steps back. -/
def Rota.SemAnterior : Rota → Prop
  | .requisicao (.filasAnterior u _) => Ability.manageAll u=false
  | _ => True

theorem Core.Chamadas.passo {k k' : Core} {r : Requisicao} {ok : Bool} {es : List Evento}
    (hk : k.Chamadas) (h : k.Passo r ok es k') (hc : (Rota.requisicao r).atende=true)
    (hr : ∀ u i,r≠.filasAnterior u i) : k'.Chamadas := by
  cases h with
  | recusa => exact hk
  | naoInscreve => exact hk
  | inscreve s m a g f t => exact hk.insereVaga a.id f.id _ t
  | filasFim s f hf hn he => exact hk.esvazia he
  | filasProximo s f hf hn hc => exact hk.chama hf hc
  | filasAnterior s f => exact absurd rfl (hr s f.id)
  | semMesa => exact hk
  | colegiadosFim s c m hm hf he => exact hk.esvazia he
  | colegiadosProximo s c m f hm hf hc => exact hk.chama (proximaFila_find hf) hc
  | edita => cases hc
  | ativa => cases hc

theorem Core.Muda.chamadas {k k' : Core} {r : Rota} (h : k.Muda r k') (hk : k.Chamadas)
    (hc : r.atende=true) (hr : ∀ u i,r≠.requisicao (.filasAnterior u i)) : k'.Chamadas := by
  cases h with
  | nada => exact hk
  | rodadas => exact ⟨hk.emitida,hk.alcancada⟩
  | requisicao r hp => exact hk.passo hp hc (fun u i he => hr u i (congrArg _ he))
  | filasEsvaziaMesa s i he => exact hk.esvazia he
  | colegiadosEsvaziaMesa s i he => exact hk.esvazia he
  | _ => cases hc

theorem Core.Chamadas.livre {k : Core} (h : k.Chamadas) {r : Rota} (hr : r.SemAnterior) :
    r.livre k=true := by
  unfold Rota.livre
  split
  · refine decide_eq_true (fun _ f hf _ => ?_)
    obtain ⟨hm,hi⟩ := (k.filas.find_eq_some_iff _ _).mp hf
    exact h.foraDasOutras (Table.find_of_mem hm) _
  · exact decide_eq_true (fun hs => absurd (Eq.trans (Eq.symm hr) hs) Bool.false_ne_true)
  · refine decide_eq_true (fun _ f hf => ?_)
    exact h.foraDasOutras (proximaFila_find hf) _
  · rfl

def semAnterior (_ : World) (r : Rota) (_ : Outcome Evento World Erro Resposta) : Prop :=
  r.atende=true ∧ r.SemAnterior

theorem livre_of_semAnterior {s₀ s : World} (hm : ∀ m ∈ s₀.db.mesas.rows,m.vagaId=none)
    (h : Runs Rota.prog semAnterior s₀ s) : Runs Rota.prog livre s₀ s := by
  refine h.strengthen (fun s => s.db.core.Chamadas) ⟨?_,?_⟩ ?_
    (fun s r hi hr => ⟨hr.1,hi.livre hr.2⟩)
  · intro m hm' i hi
    rw [hm m hm'] at hi
    cases hi
  · intro m hm' v _ hmv
    rw [hm m hm'] at hmv
    cases hmv
  · intro s r hi hr
    refine r.mantem s hi (Rota.importa_of (fun _ _ _ _ => rfl) hr.1) ?_ ?_
    · exact fun _ _ _ _ _ hp => hi.passo hp rfl (by simp)
    · intro _ hs hmuda
      refine hmuda.chamadas hi hr.1 ?_
      rintro u i rfl
      have hu : Ability.manageAll u=false := hr.2
      exact Bool.false_ne_true (hu.symm.trans hs)

/-- Every vaga is at one desk at most as long as no call moves a pointer to a vaga that another desk
is attending. Without `anterior` no call ever does. -/
theorem semRepeticao_mesas {s₀ s : World} (hm : ∀ m ∈ s₀.db.mesas.rows,m.vagaId=none)
    (h : Runs Rota.prog livre s₀ s ∨ Runs Rota.prog semAnterior s₀ s) :
    ∀ a ∈ s.db.mesas.rows,∀ b ∈ s.db.mesas.rows,∀ i ∈ a.vagaId,b.vagaId=some i → a.id=b.id := by
  rcases h with h | h
  · exact semRepeticao_livre hm h
  · exact semRepeticao_livre hm (livre_of_semAnterior hm h)

/-- Two desks call one vaga each; the first empties its desk before the second steps back. -/
theorem semRepeticao_cenario :
    let s := runAll Rota.prog (Cenario.world Cenario.medida Table.empty)
      [.requisicao (Cenario.inscreve "a"),.requisicao (Cenario.inscreve "b"),
        .requisicao (.filasProximo (Cenario.mesa 1) 1),
        .requisicao (.filasProximo (Cenario.mesa 2) 1),.filasEsvaziaMesa (Cenario.mesa 1) 1,
        .requisicao (.filasAnterior (Cenario.mesa 2) 1)]
    s.db.mesas.rows.map Mesa.vagaId=[none,some 1] ∧ ∀ a ∈ s.db.mesas.rows,
      ∀ b ∈ s.db.mesas.rows,∀ i ∈ a.vagaId,b.vagaId=some i → a.id=b.id := by
  refine ⟨by decide +kernel,?_⟩
  have hm : ∀ m ∈ (Cenario.world Cenario.medida Table.empty).db.mesas.rows,m.vagaId=none := by
    decide
  exact semRepeticao_mesas hm (Or.inl (Runs.start.append _ (by decide +kernel)))

/-- The first desk still attends vaga 1 when the second steps back to it. -/
theorem semRepeticao_falha :
    let s₀ := Cenario.world Cenario.medida Table.empty
    let s := runAll Rota.prog s₀
      [.requisicao (Cenario.inscreve "a"),.requisicao (Cenario.inscreve "b"),
        .requisicao (.filasProximo (Cenario.mesa 1) 1),
        .requisicao (.filasProximo (Cenario.mesa 2) 1),
        .requisicao (.filasAnterior (Cenario.mesa 2) 1)]
    (∀ m ∈ s₀.db.mesas.rows,m.vagaId=none) ∧ (∀ f ∈ s₀.db.filas.rows,f.posicao=0) ∧
      s₀.db.vagas.rows=[] ∧ s.db.mesas.rows.map Mesa.vagaId=[some 1,some 1] := by
  exact ⟨by decide,by decide,rfl,by decide +kernel⟩

end Sisfila
