import Sisfila.Queue.Run

namespace Sisfila

/-- The vagas put on a desk, in the order of the calls. -/
def chamadas (es : List Evento) : List Nat :=
  es.filterMap (fun e => match e with | .associa _ v => v | _ => none)

@[simp] theorem chamadas_append (es ms : List Evento) :
    chamadas (es++ms)=chamadas es++chamadas ms := List.filterMap_append

/-- The vagas created in a fila, in the order of enrolment. -/
def inscritas (f : Nat) (es : List Evento) : List Nat :=
  es.filterMap (fun e => match e with | .cria _ g v => if g=some f then v else none | _ => none)

@[simp] theorem inscritas_append (f : Nat) (es ms : List Evento) :
    inscritas f (es++ms)=inscritas f es++inscritas f ms := List.filterMap_append

/-- The calls of one fila. -/
def chamadasDe (f : Nat) (es : List Evento) : List Nat :=
  (chamadas es).filter (fun v => decide (v ∈ inscritas f es))

theorem chamadas_marcas (es : List Evento) : chamadas (es.filter Evento.marca)=chamadas es := by
  unfold chamadas
  rw [List.filterMap_filter]
  refine List.filterMap_congr ?_
  intro e _
  cases e with
  | associa m v => rfl
  | _ => exact ite_self _

theorem inscritas_marcas (f : Nat) (es : List Evento) :
    inscritas f (es.filter Evento.marca)=inscritas f es := by
  unfold inscritas
  rw [List.filterMap_filter]
  refine List.filterMap_congr ?_
  intro e _
  cases e with
  | cria a g v => cases v <;> simp [Evento.marca]
  | _ => exact ite_self _

namespace Core

variable {k : Core}

theorem id_mem_vagasDe {f g : Nat} {v : VagaBase} (hv : v ∈ k.vagasDe f)
    (hg : v.id ∈ (k.vagasDe g).map (fun v => v.id)) : f=g := by
  obtain ⟨w,hw,he⟩ := List.mem_map.mp hg
  obtain ⟨hvr,hvf⟩ := mem_vagasDe.mp hv
  obtain ⟨hwr,hwg⟩ := mem_vagasDe.mp hw
  rw [k.vagas.key_injective hwr hvr he,hvf] at hwg
  exact Option.some.inj hwg

theorem ids_nodup (k : Core) (f : Nat) : ((k.vagasDe f).map (fun v => v.id)).Nodup := by
  have h : (k.vagasDe f).Pairwise (fun a b => Row.key a<Row.key b) := k.vagas.ascending.filter _
  exact (List.pairwise_map.mpr h).imp (fun h => Nat.ne_of_lt h)

/-- The calls so far are the vagas up to each pointer. -/
structure EmOrdem (k : Core) (es : List Evento) : Prop where
  contigua : k.Contigua
  naLista : k.NaLista
  existem : ∀ v ∈ chamadas es,v<k.vagas.next
  inscritas : ∀ f,inscritas f es=(k.vagasDe f).map (fun v => v.id)
  chamadas : ∀ f ∈ k.filas.rows,chamadasDe f.id es=(Sisfila.inscritas f.id es).take f.posicao.toNat

theorem EmOrdem.vazio (hf : ∀ f ∈ k.filas.rows,f.posicao=0) (hv : k.vagas.rows=[]) :
    k.EmOrdem [] := by
  have hn : ∀ f,k.vagasDe f=[] := fun f => by simp [vagasDe,hv]
  refine ⟨contigua_of_vazia hv,fun f hm => ?_,by simp [Sisfila.chamadas],fun f => ?_,
    fun f _ => by simp [chamadasDe,Sisfila.chamadas,Sisfila.inscritas]⟩
  · simp [hf f hm]
  · rw [hn]
    rfl

/-- Marks that neither enrol nor call. -/
theorem EmOrdem.mesas {es ms : List Evento} (h : k.EmOrdem es) (t : Table Mesa)
    (hc : Sisfila.chamadas ms=[]) (hi : ∀ f,Sisfila.inscritas f ms=[]) :
    ({ k with mesas := t } : Core).EmOrdem (es++ms) where
  contigua := h.contigua
  naLista := h.naLista
  existem := by simpa [hc] using h.existem
  inscritas := by
    intro f
    rw [inscritas_append,hi,List.append_nil]
    exact h.inscritas f
  chamadas := by simpa [chamadasDe,hc,hi] using h.chamadas

/-- Enrolling puts the newcomer behind everybody already called. -/
theorem EmOrdem.insereVaga {es : List Evento} (h : k.EmOrdem es) (a f : Nat) (t : ℚ) :
    (k.insereVaga a f (k.maiorPosicao f) t).EmOrdem
      (es++[.cria a (some f) (some k.vagas.next)]) where
  contigua := h.contigua.insereVaga a f t
  naLista := h.naLista.insereVaga a f _ t
  existem := by
    intro v hv
    simp only [chamadas_append,List.mem_append] at hv
    exact Nat.lt_succ_of_lt (h.existem v (hv.resolve_right (by simp [Sisfila.chamadas])))
  inscritas := by
    intro g
    rw [inscritas_append,h.inscritas,vagasDe_insereVaga]
    split_ifs with hfg <;> simp [Sisfila.inscritas,hfg,novaVaga]
  chamadas := by
    intro g hg
    have hl := (h.naLista g hg).2
    have hc := h.chamadas g hg
    unfold chamadasDe at *
    have hn : (Sisfila.chamadas (es++[.cria a (some f) (some k.vagas.next)]))=
        Sisfila.chamadas es := by simp [Sisfila.chamadas]
    have hi : ∀ v ∈ Sisfila.chamadas es,
        v ∉ Sisfila.inscritas g.id [.cria a (some f) (some k.vagas.next)] := by
      intro v hv
      have hne := ne_of_lt (h.existem v hv)
      by_cases hfg : f=g.id <;> simp [Sisfila.inscritas,hfg,hne]
    rw [hn,inscritas_append,List.take_append_of_le_length,← hc]
    · refine List.filter_congr ?_
      intro v hv
      simp [hi v hv]
    · rw [h.inscritas,List.length_map]
      omega

/-- A call moves its fila's first waiting vaga to the calls. -/
theorem EmOrdem.chama {es : List Evento} (h : k.EmOrdem es) {f : FilaBase} (m : Mesa) (t : ℚ)
    (hf : k.filas.find f.id=some f) (hp : f.posicao<((k.vagasDe f.id).length : Int)) :
    ((k.incrementa f.id 1).ocupa m ((k.vagaEm f.id (f.posicao+1)).map (fun v => v.id)) t).EmOrdem
      (es++[.incrementa f.id (f.posicao+1),
        .associa m.id ((k.vagaEm f.id (f.posicao+1)).map (fun v => v.id))]) := by
  have hm := Table.mem_of_find hf
  obtain ⟨n,hn⟩ := Int.eq_ofNat_of_zero_le (h.naLista f hm).1
  rw [hn] at hp
  have hlt : n<(k.vagasDe f.id).length := by omega
  set v := (k.vagasDe f.id)[n] with hvd
  have hv : k.vagaEm f.id (f.posicao+1)=some v := by
    rw [vagaEm,hn,(h.contigua f.id).find_eq n,List.getElem?_eq_getElem hlt]
  have hmem : v ∈ k.vagasDe f.id := List.getElem_mem hlt
  rw [hv,Option.map_some]
  have hi : ∀ g,Sisfila.inscritas g [.incrementa f.id (f.posicao+1),.associa m.id (some v.id)]=[] :=
    fun g => rfl
  have hc : Sisfila.chamadas [.incrementa f.id (f.posicao+1),.associa m.id (some v.id)]=[v.id] := rfl
  refine ⟨h.contigua,h.naLista.avanca hf (by omega),?_,?_,?_⟩
  · intro w hw
    rw [chamadas_append,hc,List.mem_append,List.mem_singleton] at hw
    rcases hw with hw | rfl
    · exact h.existem w hw
    · exact k.vagas.below _ (mem_vagasDe.mp hmem).1
  · intro g
    rw [inscritas_append,hi,List.append_nil]
    exact h.inscritas g
  · intro g' hg'
    obtain ⟨g,hg,hid,-,-,-,hpos⟩ := k.mem_filas_incrementa hg'
    have hcg := h.chamadas g hg
    unfold chamadasDe at *
    rw [chamadas_append,inscritas_append,hi,hc,List.append_nil,List.filter_append,hid,hpos,hcg]
    rw [h.inscritas]
    split_ifs with hgf
    · obtain rfl : g=f := k.filas.key_injective hg hm hgf
      have ht : (g.posicao+1).toNat=n+1 := by omega
      have ht' : g.posicao.toNat=n := by omega
      have hlt' : n<((k.vagasDe g.id).map (fun v => v.id)).length := by simpa using hlt
      rw [ht,ht',List.take_succ_eq_append_getElem hlt',List.append_cancel_left_eq]
      have hin : v.id ∈ (k.vagasDe g.id).map (fun v => v.id) := List.mem_map.mpr ⟨v,hmem,rfl⟩
      rw [List.filter_singleton,decide_eq_true hin]
      simp [hvd]
    · have hno : v.id ∉ (k.vagasDe g.id).map (fun v => v.id) :=
        fun hi => hgf (id_mem_vagasDe hmem hi).symm
      rw [List.filter_singleton,decide_eq_false hno]
      simp

theorem Passo.emOrdem {r : Requisicao} {es ms : List Evento} {k' : Core}
    (h : k.Passo r true ms k') (hr : r.acao ∈ [Acao.inscrever,.colegiadosProximo])
    (hk : k.EmOrdem es) : k'.EmOrdem (es++ms) := by
  cases h with
  | naoInscreve => exact hk.mesas k.mesas rfl (fun _ => rfl)
  | inscreve s m a g f t => exact hk.insereVaga a.id f.id t
  | semMesa => exact hk.mesas k.mesas rfl (fun _ => rfl)
  | colegiadosFim s c m hm hf he =>
    cases he with
    | nada => exact hk.mesas k.mesas rfl (fun _ => rfl)
    | feita m t => exact hk.mesas _ rfl (fun _ => rfl)
  | colegiadosProximo s c m f hm hf hc =>
    cases hc with
    | semMesa hn => rw [hn] at hm; simp at hm
    | feita m' t => exact hk.chama m' t (proximaFila_find hf) (proximaFila_lt hf)
  | filasFim => simp [Requisicao.acao] at hr
  | filasProximo => simp [Requisicao.acao] at hr
  | filasAnterior => simp [Requisicao.acao] at hr
  | edita => simp [Requisicao.acao] at hr
  | ativa => simp [Requisicao.acao] at hr

end Core

/-- First come, first served, exactly once: in a run of enrolments and calls where nothing raises,
the calls of each fila are its enrolments up to its pointer. -/
theorem chamadasDe_eq_take {s₀ s : World} {es : List Evento}
    (hf : ∀ f ∈ s₀.db.filas.rows,f.posicao=0) (hv : s₀.db.vagas.rows=[])
    (h : Corre (completas [.inscrever,.colegiadosProximo]) s₀ es s) :
    ∀ f ∈ s.db.filas.rows,∃ n : Nat,f.posicao=n ∧ n≤(inscritas f.id es).length ∧
      inscritas f.id es=(s.db.vagasDe (some f.id)).map (fun v => v.id) ∧
      (inscritas f.id es).Nodup ∧ chamadasDe f.id es=(inscritas f.id es).take n := by
  have hI := h.invariante Core.EmOrdem
    (Core.EmOrdem.vazio
      (by intro f hm; obtain ⟨g,hg,rfl⟩ := List.mem_map.mp hm; exact hf g hg) (by simp [hv]))
    (fun k es r ok ms k' hk hr hp => (hr.1 ▸ hp : k.Passo r true ms k').emOrdem hr.2 hk)
  intro f hm
  have hm' : f.toFilaBase ∈ s.db.core.filas.rows := List.mem_map.mpr ⟨f,hm,rfl⟩
  obtain ⟨h0,h1⟩ := hI.naLista _ hm'
  obtain ⟨n,hn⟩ := Int.eq_ofNat_of_zero_le h0
  have hi := hI.inscritas f.id
  have hc := hI.chamadas _ hm'
  rw [inscritas_marcas] at hi
  simp only [chamadasDe,inscritas_marcas,chamadas_marcas,hn,Int.toNat_natCast] at hc
  refine ⟨n,hn,?_,?_,?_,hc⟩
  · rw [hi,List.length_map]
    omega
  · rw [hi,Db.vagasDe_core,List.map_map]
    rfl
  · rw [hi]
    exact s.db.core.ids_nodup f.id

/-- Two enrolments and a call, from a fila that already has its attendance time. -/
theorem chamadasDe_eq_take_cenario : ∃ es s,
    Corre (completas [.inscrever,.colegiadosProximo]) (Cenario.world Cenario.medida .empty) es s ∧
    chamadas es=[1] ∧ inscritas 1 es=[1,2] ∧
    ∀ f ∈ s.db.filas.rows,∃ n : Nat,f.posicao=n ∧ n≤(inscritas f.id es).length ∧
      inscritas f.id es=(s.db.vagasDe (some f.id)).map (fun v => v.id) ∧
      (inscritas f.id es).Nodup ∧ chamadasDe f.id es=(inscritas f.id es).take n := by
  have h₀ : Corre (completas [.inscrever,.colegiadosProximo])
      (Cenario.world Cenario.medida .empty) [] _ := .inicio
  have h₁ := h₀.passo (Cenario.inscreve "a") (by decide +kernel)
  have h₂ := h₁.passo (Cenario.inscreve "b") (by decide +kernel)
  have h₃ := h₂.passo (.colegiadosProximo (Cenario.mesa 1) 1) (by decide +kernel)
  exact ⟨_,_,h₃,by decide +kernel,by decide +kernel,
    chamadasDe_eq_take (by decide +kernel) (by decide +kernel) h₃⟩

end Sisfila
