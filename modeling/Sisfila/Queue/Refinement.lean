import Mathlib.Data.List.Find
import Sisfila.Framework.Cursor
import Sisfila.Framework.References
import Sisfila.Framework.Runs
import Sisfila.Model.Routes
import Sisfila.Queue.WaitingList

namespace Sisfila

/-! What the queue is for, without positions and rows: every fila is a list of vagas with a place
in it, every desk has room for one vaga. -/

/-- The filas and the desks there are. -/
@[ext] structure Balcao where
  filas : Nat → Option (Cursor Nat)
  mesas : Nat → Option (Option Nat)

namespace Balcao

/-- Only a desk that exists can be given a vaga. -/
def senta (b : Balcao) (mesa v : Option Nat) : Balcao :=
  { b with mesas := fun d => if some d=mesa then (b.mesas d).map (fun _ => v) else b.mesas d }

def move (b : Balcao) (f : Nat) (g : Cursor Nat → Cursor Nat) : Balcao :=
  { b with filas := fun i => if i=f then (b.filas i).map g else b.filas i }

/-- Somebody is waiting in the fila. -/
def espera (b : Balcao) (f : Nat) : Bool := ((b.filas f).map (fun c => !c.ahead.isEmpty)).getD false

/-- The next of fila `f` to the desk, which is emptied when nobody is left. -/
def proximo (b : Balcao) (mesa : Option Nat) (f : Nat) : Balcao :=
  if b.espera f then (b.move f Cursor.next).senta mesa ((b.filas f).bind (fun c => c.next.here))
  else b.senta mesa none

def anterior (b : Balcao) (mesa : Option Nat) (f : Nat) : Balcao :=
  (b.move f Cursor.back).senta mesa ((b.filas f).bind (fun c => c.back.here))

/-- The same from the first fila of the colegiado in which somebody waits. -/
def chama (b : Balcao) (mesa : Option Nat) (ordem : List Nat) : Balcao :=
  if (mesa.bind b.mesas).isNone then b
  else match ordem.find? b.espera with
    | some f => b.proximo mesa f
    | none => b.senta mesa none

/-- Vaga `v` joins fila `f`, if the request says it has created one. -/
def entra (b : Balcao) : Evento → Balcao
  | .cria _ (some f) (some v) => b.move f (·.push v)
  | _ => b

/-- One request, with the events it shows. `ordem` lists the filas of a colegiado. -/
def passo (ordem : Nat → List Nat) (b : Balcao) (x : Requisicao × List Evento) : Balcao :=
  match x.1 with
  | .inscrever _ _ => x.2.foldl entra b
  | .filasProximo u f => b.proximo u.mesa f
  | .filasAnterior u f => b.anterior u.mesa f
  | .filasUpdateAtivo _ _ _ => b
  | .colegiadosProximo u c => b.chama u.mesa (ordem c)

end Balcao

namespace Core

variable {k : Core}

/-- The vagas of fila `f`, first enrolled first. -/
def chegadas (k : Core) (f : Nat) : List Nat := (k.vagasDe f).map (fun v => v.id)

/-- What the tables stand for. -/
def balcao (k : Core) : Balcao where
  filas f := (k.filas.find f).map (fun g => Cursor.place (k.chegadas f) g.posicao.toNat)
  mesas m := (k.mesas.find m).map Mesa.vagaId

/-- The filas of a colegiado in the order they are called. -/
def ordem (k : Core) (c : Nat) : List Nat := (k.filasDe c).map FilaBase.id

/-- What the abstraction needs of the tables. -/
structure Fiel (k : Core) : Prop where
  contigua : k.Contigua
  naLista : k.NaLista
  mesas : Refers Mesa.vagaId k.mesas k.vagas

theorem filas_balcao {f : FilaBase} (hf : k.filas.find f.id=some f) :
    k.balcao.filas f.id=some (Cursor.place (k.chegadas f.id) f.posicao.toNat) := by
  simp [balcao,hf]

/-! The writes, seen from above. -/

theorem balcao_ocupa {m : Mesa} (hm : k.mesas.find m.id=some m) (v : Option Nat) (t : ℚ) :
    (k.ocupa m v t).balcao=k.balcao.senta (some m.id) v := by
  refine Balcao.ext rfl ?_
  funext d
  by_cases hd : d=m.id
  · subst hd
    obtain ⟨r,hr,hrv⟩ := k.find_mesas_ocupa hm v t
    simp [balcao,Balcao.senta,hr,hrv,hm]
  · simp [balcao,Balcao.senta,k.find_mesas_ocupa_of_ne hd,hd]

/-- A move of one pointer is what it makes of the place in that list. -/
theorem balcao_incrementa {f : FilaBase} (hf : k.filas.find f.id=some f) {n : Int}
    {g : Cursor Nat → Cursor Nat}
    (hg : g (Cursor.place (k.chegadas f.id) f.posicao.toNat)=
      Cursor.place (k.chegadas f.id) (f.posicao+n).toNat) :
    (k.incrementa f.id n).balcao=k.balcao.move f.id g := by
  refine Balcao.ext ?_ rfl
  funext i
  simp only [balcao,Balcao.move,incrementa,Table.find_modify,Option.map_map]
  by_cases hi : i=f.id
  · subst hi
    rw [hf]
    simp only [Option.map_some,Function.comp_apply,Row.key_filaBase,if_true,hg]
    rfl
  · rw [if_neg hi]
    cases hr : k.filas.find i with
    | none => rfl
    | some r =>
      have hk : r.id=i := Table.key_of_find hr
      simp only [Option.map_some,Function.comp_apply,Row.key_filaBase,hk,hi,if_false]
      rfl

theorem balcao_insereVaga (hn : k.NaLista) (a f n : Nat) (t : ℚ) :
    (k.insereVaga a f n t).balcao=k.balcao.move f (·.push k.vagas.next) := by
  refine Balcao.ext ?_ rfl
  funext i
  simp only [balcao,Balcao.move,filas_insereVaga,chegadas,vagasDe_insereVaga]
  cases hr : k.filas.find i with
  | none => simp
  | some r =>
    have hk : r.id=i := Table.key_of_find hr
    have hb := (hn r (Table.mem_of_find hr))
    rw [hk] at hb
    by_cases hi : i=f
    · have hle : r.posicao.toNat≤((k.vagasDe i).map (fun v => v.id)).length := by
        rw [List.length_map]
        omega
      have hp := Cursor.push_place hle k.vagas.next
      subst hi
      simp only [Option.map_some,if_true,List.map_append,List.map_cons,List.map_nil,novaVaga,hp]
    · simp [hi,Ne.symm hi]

theorem balcao_ativaFila (k : Core) (i : Nat) (b : Option Bool) :
    (k.ativaFila i b).balcao=k.balcao := by
  refine Balcao.ext ?_ rfl
  funext f
  simp only [balcao,ativaFila,Table.find_modify,Option.map_map]
  congr 1
  funext g
  simp only [Function.comp_apply]
  split_ifs <;> rfl

/-- A desk that does not exist is given nothing. -/
theorem senta_of_none {mesa : Option Nat} (h : mesa.bind k.mesas.find=none) (v : Option Nat) :
    ∀ b : Balcao,b.mesas=k.balcao.mesas → b.senta mesa v=b := by
  intro b hb
  refine Balcao.ext rfl ?_
  funext d
  simp only [Balcao.senta]
  split_ifs with hd
  · have hn : k.mesas.find d=none := by
      rw [← hd,Option.bind_some] at h
      exact h
    rw [hb]
    simp [balcao,hn]
  · rfl

/-! The requests. -/

/-- The vaga at the pointer is the last one passed. -/
theorem vagaEm_here (hc : k.Contigua) {f n : Nat} (hn : n≤(k.vagasDe f).length) :
    (k.vagaEm f n).map (fun v => v.id)=(Cursor.place (k.chegadas f) n).here := by
  cases n with
  | zero =>
    have hz : k.vagaEm f (0 : Nat)=none := by
      apply List.find?_eq_none.mpr
      intro v hv
      obtain ⟨i,-,-,hp⟩ := (hc f).pos_of_mem hv
      simp only [hp,beq_iff_eq,Option.some.injEq]
      omega
    rw [hz]
    rfl
  | succ n =>
    have hf : k.vagaEm f ((n+1 : Nat) : Int)=(k.vagasDe f)[n]? := (hc f).find_eq n
    have hl : n<(k.chegadas f).length := by
      rw [chegadas,List.length_map]
      omega
    rw [hf,Cursor.here_place hl,chegadas,List.getElem?_map]

/-- A call that completes moves the place and writes the desk. -/
theorem Chama.balcao (hk : k.Fiel) {f : FilaBase} (hf : k.filas.find f.id=some f) {n : Int}
    {mesa : Option Nat} {es : List Evento} {k' : Core} (h : k.Chama f n mesa true es k')
    {g : Cursor Nat → Cursor Nat} (h0 : 0≤f.posicao+n)
    (h1 : f.posicao+n≤((k.vagasDe f.id).length : Int))
    (hg : g (Cursor.place (k.chegadas f.id) f.posicao.toNat)=
      Cursor.place (k.chegadas f.id) (f.posicao+n).toNat) :
    k'.balcao=(k.balcao.move f.id g).senta mesa
      ((k.balcao.filas f.id).bind (fun c => (g c).here)) := by
  have hv : (k.vagaEm f.id (f.posicao+n)).map (fun v => v.id)=
      (k.balcao.filas f.id).bind (fun c => (g c).here) := by
    rw [filas_balcao hf,Option.bind_some,hg,← vagaEm_here hk.contigua (by omega),
      Int.toNat_of_nonneg h0]
  rw [← balcao_incrementa hf hg,← hv]
  cases h with
  | semMesa hm => exact (senta_of_none (k := k) hm _ (k.incrementa f.id n).balcao rfl).symm
  | feita m t hm =>
    obtain ⟨i,hi,hmi⟩ := Option.bind_eq_some_iff.mp hm
    obtain rfl : m.id=i := Table.key_of_find hmi
    rw [balcao_ocupa (k := k.incrementa f.id n) hmi,hi]

theorem espera_balcao (hk : k.Fiel) {f : FilaBase} (hf : k.filas.find f.id=some f) :
    k.balcao.espera f.id=decide (f.posicao<((k.vagasDe f.id).length : Int)) := by
  obtain ⟨h0,h1⟩ := hk.naLista f (Table.mem_of_find hf)
  rw [Balcao.espera,filas_balcao hf,Option.map_some,Option.getD_some]
  have hl : f.posicao.toNat≤(k.chegadas f.id).length := by
    rw [chegadas,List.length_map]
    omega
  have hlen : (k.chegadas f.id).length=(k.vagasDe f.id).length := List.length_map _
  have hn := Cursor.ahead_place_eq_nil hl
  by_cases he : (Cursor.place (k.chegadas f.id) f.posicao.toNat).ahead=[]
  · have heq := hn.mp he
    simp only [he,List.isEmpty_nil,Bool.not_true]
    symm
    rw [decide_eq_false_iff_not]
    omega
  · have hne : f.posicao.toNat≠(k.chegadas f.id).length := fun h => he (hn.mpr h)
    simp only [List.isEmpty_eq_false_iff.mpr he,Bool.not_false]
    symm
    rw [decide_eq_true_iff]
    omega

/-- Both kinds of call, once the fila is known and somebody waits there. -/
theorem Chama.balcao_proximo (hk : k.Fiel) {f : FilaBase} (hf : k.filas.find f.id=some f)
    (hlt : f.posicao<((k.vagasDe f.id).length : Int)) {mesa : Option Nat} {es : List Evento}
    {k' : Core} (h : k.Chama f 1 mesa true es k') : k'.balcao=k.balcao.proximo mesa f.id := by
  obtain ⟨h0,h1⟩ := hk.naLista f (Table.mem_of_find hf)
  have hg : (Cursor.place (k.chegadas f.id) f.posicao.toNat).next=
      Cursor.place (k.chegadas f.id) (f.posicao+1).toNat := by
    rw [Cursor.next_place (by rw [chegadas,List.length_map]; omega)]
    congr 1
    omega
  rw [h.balcao hk hf (by omega) (by omega) hg,Balcao.proximo,espera_balcao hk hf,
    if_pos (decide_eq_true hlt)]

theorem Chama.balcao_anterior (hk : k.Fiel) {f : FilaBase} (hf : k.filas.find f.id=some f)
    (hpos : 0<f.posicao) {mesa : Option Nat} {es : List Evento} {k' : Core}
    (h : k.Chama f (-1) mesa true es k') : k'.balcao=k.balcao.anterior mesa f.id := by
  obtain ⟨h0,h1⟩ := hk.naLista f (Table.mem_of_find hf)
  have hg : (Cursor.place (k.chegadas f.id) f.posicao.toNat).back=
      Cursor.place (k.chegadas f.id) (f.posicao+(-1)).toNat := by
    have hs : f.posicao.toNat=(f.posicao+(-1)).toNat+1 := by omega
    rw [hs,Cursor.back_place (by rw [chegadas,List.length_map]; omega)]
  rw [h.balcao hk hf (by omega) (by omega) hg,Balcao.anterior]

theorem Esvazia.balcao {mesa : Option Nat} {es : List Evento} {k' : Core}
    (h : k.Esvazia mesa es k')
    (hd : ∀ m,mesa.bind k.mesas.find=some m → ∃ r,k'.mesas.find m.id=some r ∧ r.vagaId=none) :
    k'.balcao=k.balcao.senta mesa none := by
  cases h with
  | nada =>
    refine Balcao.ext rfl ?_
    funext d
    simp only [Balcao.senta]
    split_ifs with he
    · subst he
      cases hr : k.mesas.find d with
      | none => simp [Core.balcao,hr]
      | some r =>
        obtain ⟨r',hr',hv⟩ := hd r hr
        obtain rfl : r.id=d := Table.key_of_find hr
        obtain rfl := Option.some.inj (hr.symm.trans hr')
        simp [Core.balcao,hr,hv]
    · rfl
  | feita m t hm =>
    obtain ⟨i,hi,hmi⟩ := Option.bind_eq_some_iff.mp hm
    obtain rfl : m.id=i := Table.key_of_find hmi
    rw [balcao_ocupa hmi,hi]

theorem find_ordem (hk : k.Fiel) (c : Nat) :
    (k.ordem c).find? k.balcao.espera=(k.proximaFila c).map FilaBase.id := by
  rw [ordem,proximaFila,List.find?_map]
  congr 1
  apply List.find?_congr
  intro f hf
  have hm := (mem_filasDe.mp hf).1
  exact espera_balcao hk (Table.find_of_mem hm)

theorem Chama.refere {f : FilaBase} {n : Int} {mesa : Option Nat} {ok : Bool} {es : List Evento}
    {k' : Core} (h : k.Chama f n mesa ok es k') (hk : Refers Mesa.vagaId k.mesas k.vagas) :
    Refers Mesa.vagaId k'.mesas k'.vagas := by
  cases h with
  | falha => exact hk
  | semMesa hm => exact hk
  | feita m t hm => exact refere_ocupa (k := k.incrementa f.id n) hk m refere_vagaEm t

theorem Esvazia.refere {mesa : Option Nat} {es : List Evento} {k' : Core}
    (h : k.Esvazia mesa es k') (hk : Refers Mesa.vagaId k.mesas k.vagas) :
    Refers Mesa.vagaId k'.mesas k'.vagas := by
  cases h with
  | nada => exact hk
  | feita m t hm => exact refere_ocupa hk m (by simp) t

theorem Passo.refere {r : Requisicao} {ok : Bool} {es : List Evento} {k' : Core}
    (h : k.Passo r ok es k') (hk : Refers Mesa.vagaId k.mesas k.vagas) :
    Refers Mesa.vagaId k'.mesas k'.vagas := by
  cases h with
  | inscreve => exact hk.of_insert (fun _ => rfl)
  | filasFim s f hf hn he => exact he.refere hk
  | filasProximo s f hf hn hc => exact hc.refere hk
  | filasAnterior s f hf hc => exact hc.refere hk
  | colegiadosFim s c m hm hf he => exact he.refere hk
  | colegiadosProximo s c m f hm hf hc => exact hc.refere hk
  | _ => exact hk

theorem ordem_incrementa (k : Core) (i : Nat) (n : Int) : (k.incrementa i n).ordem=k.ordem := by
  funext c
  rw [ordem,filasDe_incrementa,List.map_map,ordem]
  apply List.map_congr_left
  intro f _
  simp only [Function.comp_apply]
  split_ifs <;> rfl

theorem ordem_ativaFila (k : Core) (i : Nat) (b : Option Bool) :
    (k.ativaFila i b).ordem=k.ordem := by
  funext c
  have hp : ∀ f : FilaBase,(if Row.key f=i then { f with ativo := b }
      else f).prioridade=f.prioridade := by intro f; split_ifs <;> rfl
  have hc : ∀ f : FilaBase,(if Row.key f=i then { f with ativo := b }
      else f).colegiadoId=f.colegiadoId := by intro f; split_ifs <;> rfl
  have hi : ∀ f : FilaBase,(if Row.key f=i then { f with ativo := b }
      else f).id=f.id := by intro f; split_ifs <;> rfl
  simp only [ordem,filasDe,ativaFila,Table.modify_rows,List.filter_map,orderBy_map,List.map_map,
    Function.comp_def,hp,hc,hi]

/-- The order of the filas is no business of the requests. -/
theorem Efeito.ordem {r : Requisicao} {k' : Core} (h : k.Efeito r k') : k'.ordem=k.ordem := by
  cases h with
  | nada => rfl
  | inscreve => rfl
  | avanca _ f ms => exact k.ordem_incrementa f.id 1
  | recua s f ms => exact k.ordem_incrementa f.id (-1)
  | ativa s i b => exact k.ordem_ativaFila i b

/-- Only an enrolment writes vagas. -/
theorem Efeito.vagas {r : Requisicao} {k' : Core} (h : k.Efeito r k') (hr : r.acao≠.inscrever) :
    k'.vagas=k.vagas := by
  cases h with
  | inscreve => exact absurd rfl hr
  | _ => rfl

end Core

/-- A step back from the start of a list is not one of the queue's moves. -/
def Requisicao.podeVoltar (d : Db) : Requisicao → Bool
  | .filasAnterior _ f => decide (∃ g ∈ d.filas.find f,0<g.posicao)
  | _ => true

theorem Core.Passo.fiel {d : Db} {r : Requisicao} {ok : Bool} {es : List Evento} {k' : Core}
    (h : d.core.Passo r ok es k') (hr : r.podeVoltar d=true) (hk : d.core.Fiel) : k'.Fiel := by
  refine ⟨h.efeito.contigua hk.contigua,?_,h.refere hk.mesas⟩
  by_cases ha : r.acao=.filasAnterior
  · cases h with
    | filasAnterior s f hf hc =>
      rw [Db.findFila_core] at hf
      obtain ⟨g,hg,rfl⟩ := Option.map_eq_some_iff.mp hf
      obtain ⟨g',hg',hpos⟩ := of_decide_eq_true hr
      obtain rfl := Option.some.inj (hg.symm.trans hg')
      obtain ⟨ms,rfl⟩ := hc.exists_mesas
      have hf' : d.core.filas.find g.id=some g.toFilaBase := by rw [Db.findFila_core,hg]; rfl
      obtain ⟨h0,h1⟩ := hk.naLista _ (Table.mem_of_find hf')
      exact hk.naLista.incrementa hf' (by omega) (by omega)
    | recusa => exact hk.naLista
    | _ => simp [Requisicao.acao] at ha
  · exact h.efeito.naLista ha hk.naLista

/-- The request finds nobody to call. -/
def Requisicao.NoFim (k : Core) : Requisicao → Prop
  | .filasProximo _ f => ∃ g,k.filas.find f=some g ∧ g.posicao=((k.vagasDe f).length : Int)
  | .colegiadosProximo _ c => k.proximaFila c=none
  | _ => False

/-- What `associa_vaga_a_mesa(nil, ...)` leaves on a desk that exists. -/
theorem visto_mesaVazia {mesa : Option Nat} {s : World} {m : Mesa}
    (hm : mesa.bind s.db.mesas.find=some m) :
    Visto (fun _ _ k => ∃ x,k.mesas.find m.id=some x ∧ x.vagaId=none)
      (Mesa.associaVagaAMesa none mesa) s := by
  refine visto_ocupaMesa none mesa s (fun hn => absurd (hm.symm.trans hn) nofun) ?_
  intro r t hr
  obtain rfl := Option.some.inj (hm.symm.trans hr)
  obtain ⟨i,-,hmi⟩ := Option.bind_eq_some_iff.mp hm
  obtain rfl : m.id=i := Table.key_of_find hmi
  exact s.db.core.find_mesas_ocupa hmi none t

theorem visto_filasFim (u : Sessao) (i : Nat) (s : World) {m : Mesa}
    (hm : u.mesa.bind s.db.mesas.find=some m) :
    Visto (fun ok _ k => ok=true → (Requisicao.filasProximo u i).NoFim s.db.core →
      ∃ x,k.mesas.find m.id=some x ∧ x.vagaId=none) (FilasController.proximo u i) s := by
  unfold FilasController.proximo FilasController.setFila
  rw [Prog.bind_bind]
  refine Visto.carrega_bind (Visto.orRaise_bind nofun (fun f hf => ?_))
  refine Visto.authorize_bind nofun (Visto.consulta_bind ?_)
  refine Visto.bind_reads ?_ (fun _ => ⟨_,reads_notifica_pure _⟩)
  obtain rfl : f.id=i := Table.key_of_find hf
  unfold FilasController.chama
  split_ifs with hn
  · exact (visto_mesaVazia hm).mono (fun _ _ _ h _ _ => h)
  · rintro - ⟨g,hg,hl⟩
    rw [Db.findFila_core,hf] at hg
    obtain rfl := Option.some.inj hg
    rw [Db.contaVagas_core] at hn
    exact absurd hl hn

/-- A colegiado leaves alone a desk whose vaga does not exist. -/
theorem visto_colegiadosFim (u : Sessao) (c : Nat) (s : World) {m : Mesa}
    (hm : u.mesa.bind s.db.mesas.find=some m) :
    Visto (fun ok _ k => ok=true → s.db.core.proximaFila c=none →
      ∃ x,k.mesas.find m.id=some x ∧ x.vagaId.bind s.db.vagas.find=none)
      (ColegiadosController.proximo u c) s := by
  unfold ColegiadosController.proximo ColegiadosController.setColegiado
  rw [Prog.bind_bind]
  refine Visto.consulta_bind (Visto.orRaise_bind nofun (fun g hg => ?_))
  obtain rfl : g.id=c := Table.key_of_find hg
  refine Visto.authorize_bind nofun (Visto.consulta_bind ?_)
  rw [hm]
  refine Visto.reads_bind (reads_proximaFilaNaoVazia g.id) nofun (fun f hf => ?_)
  refine Visto.bind_reads ?_ (fun _ => ⟨_,Reads.ret _⟩)
  simp only [Except.ok.injEq] at hf
  have hp := s.db.proximaFila_core g.id
  rw [hf] at hp
  cases f with
  | some f =>
    rw [hp]
    refine Visto.consulta_bind ?_
    exact fun _ hn => nomatch hn
  | none =>
    refine Visto.consulta_bind ?_
    cases hv : m.vagaId.bind s.db.vagas.find with
    | none =>
      obtain ⟨i,-,hmi⟩ := Option.bind_eq_some_iff.mp hm
      obtain rfl : m.id=i := Table.key_of_find hmi
      exact fun _ _ => ⟨m,hmi,hv⟩
    | some v =>
      refine Visto.bind_reads ?_ (fun _ => ⟨_,reads_notifica⟩)
      refine (visto_mesaVazia hm).mono ?_
      rintro _ _ k ⟨x,hx,hn⟩ _ _
      exact ⟨x,hx,by rw [hn]; rfl⟩

/-- With references that hold, nobody to call means an empty desk. -/
theorem Requisicao.esvazia (r : Requisicao) (s : World) (hk : s.db.core.Fiel)
    (hok : (r.prog.exec s).ok=true) (hn : r.NoFim s.db.core) {m : Mesa}
    (hm : r.sessao.mesa.bind s.db.mesas.find=some m) :
    ∃ x,(r.prog.exec s).core.mesas.find m.id=some x ∧ x.vagaId=none := by
  cases r with
  | filasProximo u i => exact visto_filasFim u i s hm hok hn
  | colegiadosProximo u c =>
    obtain ⟨x,hx,hv⟩ := visto_colegiadosFim u c s hm hok hn
    refine ⟨x,hx,?_⟩
    have hp := (Requisicao.colegiadosProximo u c).passo s
    rw [hok] at hp
    have href := hp.refere hk.mesas x (Table.mem_of_find hx)
    rw [hp.efeito.vagas (by simp [Requisicao.acao]),Db.core_vagas,Table.keys_map] at href
    cases hxv : x.vagaId with
    | none => rfl
    | some v =>
      obtain ⟨w,hw,rfl⟩ := List.mem_map.mp (href v hxv)
      rw [hxv,Option.bind_some,Table.find_of_mem hw] at hv
      cases hv
  | _ => exact hn.elim

theorem Balcao.entra_of_marca {e : Evento} (h : e.marca=false) (b : Balcao) : b.entra e=b := by
  cases e with
  | cria a f v => cases f <;> cases v <;> first | rfl | cases h
  | _ => rfl

theorem Balcao.foldl_entra (l : List Evento) (b : Balcao) :
    l.foldl entra b=(l.filter Evento.marca).foldl entra b := by
  induction l generalizing b with
  | nil => rfl
  | cons e l ih =>
    rw [List.foldl_cons,ih,List.filter_cons]
    split_ifs with he
    · rfl
    · rw [entra_of_marca (by simpa using he)]

/-- What a completed request does to the tables is one move of the abstract queue. -/
theorem Core.Passo.balcao {k k' : Core} {r : Requisicao} {ms : List Evento}
    (h : k.Passo r true ms k') (hk : k.Fiel)
    (hvolta : ∀ u f,r=.filasAnterior u f.id → k.filas.find f.id=some f → 0<f.posicao)
    (hfim : r.NoFim k → ∀ m,r.sessao.mesa.bind k.mesas.find=some m →
      ∃ x,k'.mesas.find m.id=some x ∧ x.vagaId=none) :
    k'.balcao=k.balcao.passo k.ordem (r,ms) := by
  cases h with
  | naoInscreve => rfl
  | inscreve s m a g f t => exact balcao_insereVaga hk.naLista a.id f.id _ t
  | filasFim s f hf hn he =>
    change k'.balcao=k.balcao.proximo s.mesa f.id
    rw [he.balcao (hfim ⟨f,hf,hn⟩),Balcao.proximo,espera_balcao hk hf,if_neg (by simp [hn])]
  | filasProximo s f hf hn hc =>
    have hle := (hk.naLista f (Table.mem_of_find hf)).2
    exact hc.balcao_proximo hk hf (lt_of_le_of_ne hle hn)
  | filasAnterior s f hf hc => exact hc.balcao_anterior hk hf (hvolta s f rfl hf)
  | edita => rfl
  | ativa s i b => exact k.balcao_ativaFila i b
  | semMesa s c hm =>
    have hn : s.mesa.bind k.balcao.mesas=none := by
      cases hs : s.mesa with
      | none => rfl
      | some d =>
        rw [hs,Option.bind_some] at hm
        simp [Core.balcao,hm]
    change k.balcao=k.balcao.chama s.mesa (k.ordem c)
    rw [Balcao.chama,hn]
    rfl
  | colegiadosFim s c m hm hf he =>
    have hd : (s.mesa.bind k.balcao.mesas).isNone=false := by
      obtain ⟨i,hi,hmi⟩ := Option.bind_eq_some_iff.mp hm
      simp [hi,Core.balcao,hmi]
    change k'.balcao=k.balcao.chama s.mesa (k.ordem c)
    rw [he.balcao (hfim hf),Balcao.chama,hd,find_ordem hk,hf]
    rfl
  | colegiadosProximo s c m f hm hf hc =>
    have hd : (s.mesa.bind k.balcao.mesas).isNone=false := by
      obtain ⟨i,hi,hmi⟩ := Option.bind_eq_some_iff.mp hm
      simp [hi,Core.balcao,hmi]
    change k'.balcao=k.balcao.chama s.mesa (k.ordem c)
    rw [hc.balcao_proximo hk (proximaFila_find hf) (proximaFila_lt hf),Balcao.chama,hd,
      find_ordem hk,hf]
    rfl

/-- One request of a run: it completes, and steps back only from a place in the list. -/
def Requisicao.Permitida (s : World) (r : Requisicao) (o : Outcome Evento World Erro Resposta) :
    Prop := o.ok=true ∧ r.podeVoltar s.db=true

instance Requisicao.decidablePermitida (s : World) (r : Requisicao)
    (o : Outcome Evento World Erro Resposta) : Decidable (r.Permitida s o) :=
  inferInstanceAs (Decidable (o.ok=true ∧ r.podeVoltar s.db=true))

theorem Requisicao.refina {r : Requisicao} {s : World} (hk : s.db.core.Fiel)
    (hr : r.Permitida s (r.prog.exec s)) :
    (r.prog.exec s).core.balcao=
      s.db.core.balcao.passo s.db.core.ordem (r,(r.prog.exec s).log) := by
  obtain ⟨hok,hv⟩ := hr
  have hp := r.passo s
  rw [hok] at hp
  have hb := hp.balcao hk ?_ (fun hn _ hm => r.esvazia s hk hok hn hm)
  · rw [hb]
    cases r with
    | inscrever u m => exact (Balcao.foldl_entra _ _).symm
    | _ => rfl
  · rintro u f rfl hf
    obtain ⟨g,hg,hpos⟩ := of_decide_eq_true hv
    rw [Db.findFila_core,hg] at hf
    rw [← Option.some.inj hf]
    exact hpos

/-- The requests of a run, each with the events it shows. -/
def relato (s : World) : List Requisicao → List (Requisicao × List Evento)
  | [] => []
  | r::rs => (r,(r.prog.exec s).log)::relato (r.prog.exec s).state rs

/-- A run of permitted requests is a run of the abstract queue, from any state with lists and
references in order. -/
theorem runAll_balcao (rs : List Requisicao) {s : World} (hk : s.db.core.Fiel)
    (h : AllowedRun Requisicao.prog (fun s r o => r.Permitida s o) s rs) :
    (runAll Requisicao.prog s rs).db.core.Fiel ∧
    (runAll Requisicao.prog s rs).db.core.balcao=
      (relato s rs).foldl (Balcao.passo s.db.core.ordem) s.db.core.balcao := by
  induction rs generalizing s with
  | nil => exact ⟨hk,rfl⟩
  | cons r rs ih =>
    obtain ⟨hr,hrs⟩ := h
    have hp := r.passo s
    obtain ⟨hfim,hb⟩ := ih (s := (r.prog.exec s).state) (hp.fiel hr.2 hk) hrs
    refine ⟨hfim,?_⟩
    have ho : (r.prog.exec s).state.db.core.ordem=s.db.core.ordem := hp.efeito.ordem
    rw [relato,List.foldl_cons,← Requisicao.refina hk hr]
    rw [ho] at hb
    exact hb

/-- The set-up: every list empty, every desk empty. -/
def Balcao.inicial (d : Db) : Balcao where
  filas f := (d.filas.find f).map (fun _ => ⟨[],[]⟩)
  mesas m := (d.mesas.find m).map (fun _ => none)

namespace Cenario

end Cenario

namespace Balcao

variable {b : Balcao} {mesa : Option Nat} {f : Nat} {c : Cursor Nat}

theorem senta_senta (b : Balcao) (mesa v w : Option Nat) :
    (b.senta mesa v).senta mesa w=b.senta mesa w := by
  refine Balcao.ext rfl ?_
  funext d
  simp only [senta]
  split_ifs
  · rw [Option.map_map]
    rfl
  · rfl

theorem filas_move (hc : b.filas f=some c) (g : Cursor Nat → Cursor Nat) :
    (b.move f g).filas f=some (g c) := by
  simp [move,hc]

theorem proximo_of_espera (hc : b.filas f=some c) (h : c.ahead≠[]) :
    b.proximo mesa f=(b.move f Cursor.next).senta mesa c.next.here := by
  have he : b.espera f=true := by simp [espera,hc,List.isEmpty_eq_false_iff.mpr h]
  rw [proximo,he,if_pos rfl,hc,Option.bind_some]

theorem anterior_proximo (hc : b.filas f=some c) (h : c.ahead≠[]) :
    (b.proximo mesa f).anterior mesa f=b.senta mesa c.here := by
  have hf : (b.proximo mesa f).filas f=some c.next := by
    rw [proximo_of_espera hc h]
    exact filas_move hc _
  rw [anterior,hf,Option.bind_some,Cursor.back_next h,proximo_of_espera hc h]
  have hm : ((b.move f Cursor.next).senta mesa c.next.here).move f Cursor.back=
      b.senta mesa c.next.here := by
    refine Balcao.ext ?_ rfl
    funext i
    simp only [move,senta]
    by_cases hi : i=f
    · subst hi
      simp [hc,Cursor.back_next h]
    · simp [hi]
  rw [hm,senta_senta]

/-- The inner calls come back to the vaga the desk already has. -/
theorem anterior_iterate (n : Nat) {b : Balcao} {c : Cursor Nat} (hc : b.filas f=some c)
    (h : n<c.ahead.length) :
    (fun b : Balcao => b.anterior mesa f)^[n+1] ((fun b : Balcao => b.proximo mesa f)^[n+1] b)=
      b.senta mesa c.here := by
  have hne : c.ahead≠[] := fun he => by simp [he] at h
  induction n generalizing b c with
  | zero => exact anterior_proximo hc hne
  | succ n ih =>
    have hf : (b.proximo mesa f).filas f=some c.next := by
      rw [proximo_of_espera hc hne]
      exact filas_move hc _
    have hl : n<c.next.ahead.length := by
      obtain ⟨p,a⟩ := c
      cases a with
      | nil => exact absurd rfl hne
      | cons a l => simpa [Cursor.next] using h
    have hi := ih hf hl (fun he => by simp [he] at hl)
    rw [Function.iterate_succ_apply' _ (n+1),Function.iterate_succ_apply _ (n+1) b,hi]
    have hs : (b.proximo mesa f).senta mesa c.next.here=b.proximo mesa f := by
      rw [proximo_of_espera hc hne,senta_senta]
    rw [hs]
    exact anterior_proximo hc hne

end Balcao

theorem foldl_relato_replicate (o : Nat → List Nat) (n : Nat) {r : Requisicao}
    (hr : r.acao≠.inscrever) (rs : List Requisicao) (s : World) (b : Balcao) :
    ∃ t,(relato s (List.replicate n r++rs)).foldl (Balcao.passo o) b=
      (relato t rs).foldl (Balcao.passo o) ((fun b => b.passo o (r,[]))^[n] b) := by
  induction n generalizing s b with
  | zero => exact ⟨s,rfl⟩
  | succ n ih =>
    obtain ⟨t,ht⟩ := ih (r.prog.exec s).state (b.passo o (r,(r.prog.exec s).log))
    have he : b.passo o (r,(r.prog.exec s).log)=b.passo o (r,[]) := by
      cases r with
      | inscrever u m => exact absurd rfl hr
      | _ => rfl
    refine ⟨t,?_⟩
    rw [Function.iterate_succ_apply,← he]
    exact ht

/-- As many steps back as there were calls: every list, and the place in it, is as it was, and the
desk shows whoever had been called last before. -/
theorem chamadas_desfeitas (n : Nat) {s : World} {u : Sessao} {f : Nat} {c : Cursor Nat}
    (hk : s.db.core.Fiel) (hc : s.db.core.balcao.filas f=some c) (hn : n<c.ahead.length)
    (h : AllowedRun Requisicao.prog (fun s r o => r.Permitida s o) s
      (List.replicate (n+1) (.filasProximo u f)++List.replicate (n+1) (.filasAnterior u f))) :
    (runAll Requisicao.prog s (List.replicate (n+1) (.filasProximo u f)++
      List.replicate (n+1) (.filasAnterior u f))).db.core.balcao=
        s.db.core.balcao.senta u.mesa c.here := by
  rw [(runAll_balcao _ hk h).2]
  obtain ⟨t,ht⟩ := foldl_relato_replicate s.db.core.ordem (n+1) (r := .filasProximo u f)
    (by simp [Requisicao.acao]) (List.replicate (n+1) (.filasAnterior u f)) s s.db.core.balcao
  obtain ⟨t',ht'⟩ := foldl_relato_replicate s.db.core.ordem (n+1) (r := .filasAnterior u f)
    (by simp [Requisicao.acao]) [] t
    ((fun b => b.passo s.db.core.ordem (.filasProximo u f,[]))^[n+1] s.db.core.balcao)
  rw [List.append_nil] at ht'
  rw [ht,ht']
  exact Balcao.anterior_iterate n hc hn

namespace Cenario

/-- Three alunos wait in fila 1. -/
def tresEsperam : World :=
  runAll Requisicao.prog (world medida Table.empty) [inscreve "a",inscreve "b",inscreve "c"]

theorem fiel_tresEsperam : tresEsperam.db.core.Fiel := by
  have h := (runAll_balcao (s := world medida Table.empty)
    [inscreve "a",inscreve "b",inscreve "c"] ?_ (by decide +kernel)).1
  · exact h
  · exact ⟨Core.contigua_of_vazia rfl,Core.naLista_of_zero (by decide),by decide⟩

end Cenario

theorem chamadas_desfeitas_tres :
    (runAll Requisicao.prog Cenario.tresEsperam (List.replicate 2 (.filasProximo (Cenario.mesa 1) 1)++
      List.replicate 2 (.filasAnterior (Cenario.mesa 1) 1))).db.core.balcao=
        Cenario.tresEsperam.db.core.balcao.senta (some 1) none :=
  chamadas_desfeitas 1 (c := ⟨[],[1,2,3]⟩) Cenario.fiel_tresEsperam rfl (by decide)
    (by decide +kernel)

end Sisfila
