import Sisfila.Framework.Lanes
import Sisfila.Queue.FirstCome

namespace Sisfila

namespace Core

variable {k : Core}

/-- The vagas of a fila still to be called. -/
def lane (k : Core) (f : FilaBase) : List VagaBase := (k.vagasDe f.id).drop f.posicao.toNat

/-- Everybody waiting in a colegiado, in the order its desks will call them. -/
def espera (k : Core) (c : Nat) : List VagaBase := ((k.filasDe c).map k.lane).flatten

theorem mem_filasDe {c : Nat} {f : FilaBase} :
    f ∈ k.filasDe c ↔ f ∈ k.filas.rows ∧ f.colegiadoId=some c := by
  simp [filasDe]

theorem nodup_filasDe (k : Core) (c : Nat) : ((k.filasDe c).map FilaBase.id).Nodup := by
  have h : (k.filas.rows.filter (fun f => f.colegiadoId==some c)).Pairwise
      (fun a b => Row.key a<Row.key b) := k.filas.ascending.filter _
  refine ((orderBy_perm _ _).map FilaBase.id).nodup_iff.mpr ?_
  exact (List.pairwise_map.mpr h).imp (fun h => Nat.ne_of_lt h)

theorem filasDe_incrementa (k : Core) (i : Nat) (n : Int) (c : Nat) :
    (k.incrementa i n).filasDe c=
      (k.filasDe c).map (fun f => if f.id=i then { f with posicao := f.posicao+n } else f) := by
  simp only [filasDe,incrementa,Table.modify_rows,List.filter_map,Row.key_filaBase]
  rw [orderBy_map]
  have hp : ∀ f : FilaBase,(if f.id=i then { f with posicao := f.posicao+n } else f).prioridade=
      f.prioridade := by intro f; split_ifs <;> rfl
  have hc : ∀ f : FilaBase,(if f.id=i then { f with posicao := f.posicao+n } else f).colegiadoId=
      f.colegiadoId := by intro f; split_ifs <;> rfl
  simp only [hp,hc,Function.comp_def]

theorem lane_eq_nil (hn : k.NaLista) {c : Nat} {f : FilaBase} (hf : f ∈ k.filasDe c)
    (h : ¬f.posicao<((k.vagasDe f.id).length : Int)) : k.lane f=[] := by
  have h0 := (hn f (mem_filasDe.mp hf).1).1
  rw [lane,List.drop_eq_nil_iff]
  omega

/-- The next call serves the lanes. -/
theorem serve_lanes (hc : k.Contigua) (hn : k.NaLista) {c : Nat} {f : FilaBase}
    (hf : k.proximaFila c=some f) : ∃ v,k.vagaEm f.id (f.posicao+1)=some v ∧
      serve ((k.filasDe c).map k.lane)=
        some (v,((k.incrementa f.id 1).filasDe c).map (k.incrementa f.id 1).lane) := by
  have hlt := proximaFila_lt hf
  have hm := List.mem_of_find?_eq_some hf
  obtain ⟨n,hp⟩ := Int.eq_ofNat_of_zero_le (hn f (mem_filasDe.mp hm).1).1
  have hlt' : n<(k.vagasDe f.id).length := by omega
  refine ⟨(k.vagasDe f.id)[n],?_,?_⟩
  · rw [vagaEm,hp,(hc f.id).find_eq n,List.getElem?_eq_getElem hlt']
  · have hl : k.lane f=(k.vagasDe f.id)[n]::(k.vagasDe f.id).drop (n+1) := by
      rw [lane,hp,Int.toNat_natCast,List.drop_eq_getElem_cons hlt']
    rw [serve_map (k.nodup_filasDe c) (fun g hg h => lane_eq_nil hn hg (by simpa using h)) hf hl,
      filasDe_incrementa,List.map_map]
    congr 2
    refine List.map_congr_left ?_
    intro g hg
    have h0 := (hn g (mem_filasDe.mp hg).1).1
    simp only [Function.comp_apply,lane,vagasDe_incrementa]
    split_ifs with hgf
    · obtain rfl : g=f :=
        k.filas.key_injective (mem_filasDe.mp hg).1 (mem_filasDe.mp hm).1 hgf
      congr 1
      simp only
      omega
    · rfl

theorem espera_of_proximaFila (hc : k.Contigua) (hn : k.NaLista) {c : Nat} {f : FilaBase}
    (hf : k.proximaFila c=some f) : ∃ v,k.vagaEm f.id (f.posicao+1)=some v ∧
      k.espera c=v::(k.incrementa f.id 1).espera c := by
  obtain ⟨v,hv,hs⟩ := serve_lanes hc hn hf
  exact ⟨v,hv,flatten_of_serve hs⟩

theorem espera_of_proximaFila_none (hn : k.NaLista) {c : Nat} (hf : k.proximaFila c=none) :
    k.espera c=[] := by
  rw [espera,List.flatten_eq_nil_iff]
  intro l hl
  obtain ⟨f,hm,rfl⟩ := List.mem_map.mp hl
  exact lane_eq_nil hn hm (by simpa using List.find?_eq_none.mp hf f hm)

/-- The desk of the session exists. -/
def temMesa (k : Core) (u : Sessao) : Bool := (u.mesa.bind k.mesas.find).isSome

theorem temMesa_ocupa (k : Core) (m : Mesa) (v : Option Nat) (t : ℚ) :
    (k.ocupa m v t).temMesa=k.temMesa := by
  funext u
  cases hu : u.mesa with
  | none => simp [temMesa,hu]
  | some i =>
    simp only [temMesa,hu,ocupa,Option.bind_some]
    split_ifs
    · rfl
    · rw [Table.find_modify,Option.isSome_map]

/-- One request at a desk takes the head of the waiting list. -/
theorem Passo.espera {u : Sessao} {c : Nat} {ms : List Evento} {k' : Core}
    (h : k.Passo (.colegiadosProximo u c) true ms k') (hc : k.Contigua) (hn : k.NaLista) :
    chamadas ms=((k.espera c).take (k.temMesa u).toNat).map (fun v => v.id) ∧
      k'.espera c=(k.espera c).drop (k.temMesa u).toNat ∧ k'.temMesa=k.temMesa := by
  cases h with
  | semMesa s c hm => simp [temMesa,hm,chamadas]
  | colegiadosFim s c m hm hf he =>
    have hz := espera_of_proximaFila_none hn hf
    cases he with
    | nada => simp [hz,chamadas]
    | feita m t h =>
      refine ⟨by simp [hz,chamadas],?_,k.temMesa_ocupa _ _ _⟩
      rw [hz,List.drop_nil]
      exact hz
  | colegiadosProximo s c m f hm hf hch =>
    obtain ⟨v,hv,he⟩ := espera_of_proximaFila hc hn hf
    have ht : k.temMesa u=true := by simp [temMesa,hm]
    cases hch with
    | semMesa hno => simp [hm] at hno
    | feita m' t h =>
      rw [ht,he,hv]
      exact ⟨by simp [chamadas],rfl,temMesa_ocupa _ _ _ _⟩

end Core

theorem exec_sucessivas_cons (r : Requisicao) (rs : List Requisicao) (s : World)
    (h : ((Requisicao.sucessivas (r::rs)).exec s).ok=true) :
    (r.prog.exec s).ok=true ∧
      ((Requisicao.sucessivas rs).exec (r.prog.exec s).state).ok=true ∧
      ((Requisicao.sucessivas (r::rs)).exec s).log=
        (r.prog.exec s).log++((Requisicao.sucessivas rs).exec (r.prog.exec s).state).log := by
  rw [Requisicao.sucessivas,Prog.exec_bind] at *
  generalize r.prog.exec s=o at *
  obtain ⟨log,x,t⟩ := o
  cases x with
  | error e => simp at h
  | ok a => exact ⟨rfl,h,rfl⟩

/-- Requests in a row on one colegiado call its waiting list from the front, one vaga for each
request that has a desk. -/
theorem chamadas_sucessivas (c : Nat) (us : List Sessao) (s : World)
    (hc : s.db.core.Contigua) (hn : s.db.core.NaLista)
    (hok : ((Requisicao.sucessivas (us.map (fun u => .colegiadosProximo u c))).exec s).ok=true) :
    chamadas ((Requisicao.sucessivas (us.map (fun u => .colegiadosProximo u c))).exec s).log=
      ((s.db.core.espera c).take (us.countP s.db.core.temMesa)).map (fun v => v.id) := by
  induction us generalizing s with
  | nil => simp [Requisicao.sucessivas,chamadas]
  | cons u us ih =>
    obtain ⟨h1,h2,hlog⟩ := exec_sucessivas_cons _ _ s hok
    have hp := (Requisicao.colegiadosProximo u c).passo s
    rw [h1] at hp
    obtain ⟨hm,he,ht⟩ := hp.espera hc hn
    have hi := ih _ (hp.efeito.contigua hc) (hp.efeito.naLista (by simp [Requisicao.acao]) hn) h2
    rw [List.map_cons,hlog,chamadas_append,hi,← chamadas_marcas]
    change chamadas (Outcome.marcas _)++((Outcome.core _).espera c |>.take
      (us.countP (Outcome.core _).temMesa)).map _=_
    rw [hm,he,ht,← List.map_append,List.countP_cons]
    congr 1
    cases hu : s.db.core.temMesa u
    · simp
    · simp only [Bool.toNat_true,ite_true]
      rw [Nat.add_comm,List.take_add]

end Sisfila
