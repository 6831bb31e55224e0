import Sisfila.Framework.RelyGuarantee
import Sisfila.Queue.Run

namespace Sisfila

/-- Pointer moves and desk writes. -/
def Evento.atende : Evento → Bool
  | .incrementa _ _ => true
  | .associa _ _ => true
  | _ => false

theorem Evento.atende_of_marca {e : Evento} (h : e.marca=false) : e.atende=false := by
  cases e <;> first | rfl | cases h

namespace Obs

variable {ι : Type}

def core (x : Obs ι Evento World) : Core := x.state.db.core

/-! The shared state after the writes of a call. -/

def incrementa (x : Obs ι Evento World) (i : ι) (f : Nat) (n : Int) : Obs ι Evento World :=
  x.push i (fun s => .incrementa f (((s.db.filas.find f).map (·.posicao)).getD 0+n))
    (fun s => { s with db := s.db.incrementa f n })

def associa (x : Obs ι Evento World) (i : ι) (m : Mesa) (v : Option Nat) (t : ℚ) :
    Obs ι Evento World :=
  x.push i (fun _ => .associa m.id v) (fun s => { s with db := s.db.ocupa m v t })

@[simp] theorem core_incrementa (x : Obs ι Evento World) (i : ι) (f : Nat) (n : Int) :
    (x.incrementa i f n).core=x.core.incrementa f n := Db.core_incrementa _ _ _
@[simp] theorem core_associa (x : Obs ι Evento World) (i : ι) (m : Mesa) (v : Option Nat) (t : ℚ) :
    (x.associa i m v t).core=x.core.ocupa m v t := Db.core_ocupa _ _ _ _
@[simp] theorem trace_associa (x : Obs ι Evento World) (i : ι) (m : Mesa) (v : Option Nat) (t : ℚ) :
    (x.associa i m v t).trace=(i,.associa m.id v)::x.trace := rfl

/-- A pointer move shows the stored position it leads to. -/
theorem trace_incrementa {x : Obs ι Evento World} {f : FilaBase} (i : ι) (n : Int)
    (hf : x.core.filas.find f.id=some f) :
    (x.incrementa i f.id n).trace=(i,.incrementa f.id (f.posicao+n))::x.trace := by
  rw [core,Db.findFila_core] at hf
  obtain ⟨g,hg,rfl⟩ := Option.map_eq_some_iff.mp hf
  simp only [incrementa,push_trace,hg,Option.map_some,Option.getD_some]

end Obs

theorem Core.isSome_mesa_ocupa (k : Core) (m : Mesa) (d : Nat) (v : Option Nat) (t : ℚ) :
    ((k.ocupa m v t).mesas.find d).isSome=(k.mesas.find d).isSome := by
  unfold Core.ocupa
  split_ifs
  · rfl
  · rw [Table.find_modify,Option.isSome_map]

/-- In each fila a position belongs to one vaga. -/
def Core.PosicoesUnicas (k : Core) : Prop :=
  ∀ v ∈ k.vagas.rows,∀ w ∈ k.vagas.rows,v.filaId=w.filaId → v.posicao=w.posicao →
    v.filaId.isSome → v.posicao.isSome → v=w

instance (k : Core) : Decidable k.PosicoesUnicas := by
  unfold Core.PosicoesUnicas
  infer_instance

theorem Core.PosicoesUnicas.vagaEm {k : Core} (hu : k.PosicoesUnicas) {v : VagaBase} {f : Nat}
    {p : Int} (hv : v ∈ k.vagas.rows) (hf : v.filaId=some f) (hp : v.posicao=some p) :
    k.vagaEm f p=some v := by
  cases hw : k.vagaEm f p with
  | none =>
    have hn := List.find?_eq_none.mp hw v (mem_vagasDe.mpr ⟨hv,hf⟩)
    simp [hp] at hn
  | some w =>
    obtain ⟨hwr,hwf,hwp⟩ := mem_of_vagaEm hw
    have he := hu v hv w hwr (hf.trans hwf.symm) (hp.trans hwp.symm) (by simp [hf]) (by simp [hp])
    rw [he]

/-- Spoiled neither by the others nor by the reads and statistics of request `i` itself. -/
structure Firme {ι : Type} (i : ι) (R G : Obs ι Evento World → Obs ι Evento World → Prop)
    (A : Obs ι Evento World → Prop) : Prop where
  stable : Prog.Stable R A
  quieta : ∀ l w x,Quieto l w → A x → G x (x.push i l w) ∧ A (x.push i l w)

namespace Firme

variable {ι α : Type} {i : ι} {ok : Obs ι Evento World → ι → Evento → Prop}
  {R G : Obs ι Evento World → Obs ι Evento World → Prop} {A B : Obs ι Evento World → Prop}

/-- When the others cannot tell a quiet statement of `i` from none. -/
theorem of_stable (hR : ∀ l w x,Quieto l w → R x (x.push i l w)) (hA : Prog.Stable R A)
    (hG : ∀ l w x,Quieto l w → A x → G x (x.push i l w)) : Firme i R G A :=
  ⟨hA,fun l w x hq hx => ⟨hG l w x hq hx,hA _ _ hx (hR l w x hq)⟩⟩

theorem and (hA : Firme i R G A) (hB : Prog.Stable R B)
    (hq : ∀ l w x,Quieto l w → B x → B (x.push i l w)) : Firme i R G (fun x => A x ∧ B x) where
  stable := hA.stable.and hB
  quieta := fun l w x h hx => ⟨(hA.quieta l w x h hx.1).1,(hA.quieta l w x h hx.1).2,hq l w x h hx.2⟩

theorem every (hA : Firme i R G A) {p : Req α} (hp : p.Every Quieto) :
    Prog.Triple i ok R G A p (fun _ => A) := Prog.Triple.of_every hp hA.stable hA.quieta

/-- A SELECT: what it finds may be used where it was found. -/
theorem le (hA : Prog.Stable R A) {l : Db → Evento} (hl : ∀ d,(l d).marca=false) {q : Db → α}
    {B : α → Obs ι Evento World → Prop} (hB : ∀ a,Firme i R G (B a))
    (h : ∀ x,A x → B (q x.state.db) x) : Prog.Triple i ok R G A (le l q) B := by
  apply Prog.Triple.step hA (fun a => (hB a).stable)
  intro x hx _
  exact (hB _).quieta _ _ x ⟨fun s => hl s.db,fun _ => rfl⟩ (h x hx)

end Firme

theorem every_authorize (s : Sessao) : (authorize s).Every Quieto := by
  unfold authorize
  split_ifs <;> trivial

/-- A proof outline for a call from desk `m`: what holds before the filas are loaded, of a loaded
fila, once it is chosen, once its pointer has moved, once the vaga is looked up, and at the end. -/
structure Roteiro {ι : Type} (i : ι) (ok : Obs ι Evento World → ι → Evento → Prop)
    (R G : Obs ι Evento World → Obs ι Evento World → Prop) (m : Nat) where
  livre : Obs ι Evento World → Prop
  carregada : Fila → Obs ι Evento World → Prop
  pronta : Fila → Obs ι Evento World → Prop
  movida : Fila → Obs ι Evento World → Prop
  olhada : Fila → Option Vaga → Obs ι Evento World → Prop
  feita : Obs ι Evento World → Prop
  refl : ∀ x,R x x
  firme_livre : Firme i R G livre
  firme_carregada : ∀ f,Firme i R G (carregada f)
  firme_pronta : ∀ f,Firme i R G (pronta f)
  firme_movida : ∀ f,Firme i R G (movida f)
  firme_olhada : ∀ f v,Firme i R G (olhada f v)
  firme_feita : Firme i R G feita
  feita_of_livre : ∀ x,livre x → feita x
  livre_of_pronta : ∀ f x,pronta f x → livre x
  mesa_of_livre : ∀ x,livre x → (x.core.mesas.find m).isSome
  mesa_of_olhada : ∀ f v x,olhada f v x → (x.core.mesas.find m).isSome
  carrega : ∀ x,livre x → ∀ f ∈ x.state.db.filas.rows,
    carregada f (x.push i (fun _ => .carrega) id)
  conta : ∀ f x,livre x → carregada f x → f.posicao<(x.state.db.contaVagas f.id : Int) → pronta f x
  incrementa : ∀ f x,pronta f x →
    ok x i (.incrementa f.id (((x.state.db.filas.find f.id).map (·.posicao)).getD 0+1)) →
    G x (x.incrementa i f.id 1) ∧ movida f (x.incrementa i f.id 1)
  olha : ∀ f x v,movida f x → v.map Vaga.toVagaBase=x.core.vagaEm f.id (f.posicao+1) → olhada f v x
  ocupa : ∀ f v x d t,d.id=m → olhada f v x →
    G x (x.associa i d (v.map (·.id)) t) ∧ feita (x.associa i d (v.map (·.id)) t)
  esvazia : ∀ x d t,d.id=m → livre x → G x (x.associa i d none t) ∧ feita (x.associa i d none t)

namespace Roteiro

variable {ι : Type} {i : ι} {ok : Obs ι Evento World → ι → Evento → Prop}
  {R G : Obs ι Evento World → Obs ι Evento World → Prop} {m : Nat} (r : Roteiro i ok R G m)

/-- The desk exists, so it is written. -/
private theorem associaVagaAMesa {A : Obs ι Evento World → Prop} (hA : Firme i R G A)
    (hm : ∀ x,A x → (x.core.mesas.find m).isSome) (v : Option Vaga)
    (h : ∀ x d t,d.id=m → A x → G x (x.associa i d (v.map (·.id)) t) ∧
      r.feita (x.associa i d (v.map (·.id)) t)) :
    Prog.Triple i ok R G A (Mesa.associaVagaAMesa v (some m)) (fun _ => r.feita) := by
  have hq : Prog.Triple i ok R G A (consulta (fun d => (some m).bind d.mesas.find))
      (fun o x => A x ∧ ∃ d,o=some d ∧ d.id=m) := by
    apply Firme.le hA.stable (fun _ => rfl)
    · exact fun o => hA.and (fun _ _ h _ => h) (fun _ _ _ _ h => h)
    · intro x hx
      obtain ⟨d,hd⟩ := Option.isSome_iff_exists.mp (hm x hx)
      exact ⟨hx,d,hd,Table.key_of_find hd⟩
  apply Prog.Triple.bind r.refl (hA.every (Mesa.every_registra v))
  intro _
  apply Prog.Triple.bind r.refl hq
  intro o x hx
  obtain ⟨hx,d,rfl,hd⟩ := hx
  have hw : Prog.Triple i ok R G A (timeNow >>= fun t =>
      escreve (fun _ => .associa d.id (v.map (·.id))) (fun db => db.ocupa d (v.map (·.id)) t))
      (fun _ => r.feita) := by
    apply Prog.Triple.bind r.refl (hA.every every_timeNow)
    intro t
    exact Prog.Triple.step hA.stable (fun _ => r.firme_feita.stable) (fun x hx _ => h x d t hd hx)
  exact hw x hx

theorem associa_none :
    Prog.Triple i ok R G r.livre (Mesa.associaVagaAMesa none (some m)) (fun _ => r.feita) :=
  r.associaVagaAMesa r.firme_livre r.mesa_of_livre none r.esvazia

theorem chamaProximo (f : Fila) :
    Prog.Triple i ok R G (r.pronta f) (f.chamaProximo (some m) 1) (fun _ => r.feita) := by
  have hinc : Prog.Triple i ok R G (r.pronta f) (Fila.increment f.id 1) (fun _ => r.movida f) :=
    Prog.Triple.step (r.firme_pronta f).stable (fun _ => (r.firme_movida f).stable)
      (fun x hx hok => r.incrementa f x hx hok)
  have hlook : Prog.Triple i ok R G (r.movida f)
      (Fila.vagaAtual (f.incrementada 1)) (r.olhada f) := by
    unfold Fila.vagaAtual
    apply Firme.le (r.firme_movida f).stable (fun _ => rfl) (r.firme_olhada f)
    intro x hx
    exact r.olha f x _ hx (Db.vagaEm_core _ _ _).symm
  apply Prog.Triple.bind r.refl hinc
  intro _
  apply Prog.Triple.bind r.refl hlook
  intro v
  exact r.associaVagaAMesa (r.firme_olhada f v) (r.mesa_of_olhada f v) v (r.ocupa f v)

theorem notifica : Prog.Triple i ok R G r.feita notifica (fun _ => r.feita) :=
  r.firme_feita.every every_notifica

/-- The loop keeps the loaded filas; the one it stops at has somebody to call. -/
theorem primeiraNaoVazia (fs : List Fila) :
    Prog.Triple i ok R G (fun x => r.livre x ∧ ∀ f ∈ fs,r.carregada f x)
      (Colegiado.primeiraNaoVazia fs) (fun o x => r.livre x ∧ ∀ f ∈ o,r.pronta f x) := by
  have hf : ∀ fs : List Fila,Firme i R G (fun x => r.livre x ∧ ∀ f ∈ fs,r.carregada f x) :=
    fun fs => r.firme_livre.and
      (fun x y hx h f hf => (r.firme_carregada f).stable x y (hx f hf) h)
      (fun l w x hq hx f hf => ((r.firme_carregada f).quieta l w x hq (hx f hf)).2)
  induction fs with
  | nil => exact Prog.Triple.ret (hf []).stable (fun x hx => ⟨hx.1,by simp⟩)
  | cons f fs ih =>
    have hq : Prog.Triple i ok R G (fun x => r.livre x ∧ ∀ g ∈ f::fs,r.carregada g x)
        (consulta (fun d => d.contaVagas f.id))
        (fun n x => (r.livre x ∧ ∀ g ∈ f::fs,r.carregada g x) ∧
          (f.posicao<(n : Int) → r.pronta f x)) := by
      apply Firme.le (hf _).stable (fun _ => rfl)
      · exact fun n => (hf _).and
          (fun x y hx h hn => (r.firme_pronta f).stable x y (hx hn) h)
          (fun l w x hq hx hn => ((r.firme_pronta f).quieta l w x hq (hx hn)).2)
      · exact fun x hx => ⟨hx,r.conta f x hx.1 (hx.2 f List.mem_cons_self)⟩
    apply Prog.Triple.bind r.refl hq
    intro n
    split_ifs with hn
    · have hret : Prog.Triple i ok R G (r.pronta f) (.ret (some f) : Req (Option Fila))
          (fun o x => r.livre x ∧ ∀ g ∈ o,r.pronta g x) := by
        refine Prog.Triple.ret (r.firme_pronta f).stable
          (fun x hx => ⟨r.livre_of_pronta f x hx,fun g hg => ?_⟩)
        exact Option.some.inj hg ▸ hx
      exact hret.conseq (fun _ h => h.2 hn) (fun _ _ h => h)
    · apply Prog.Triple.conseq ih _ (fun _ _ h => h)
      intro x hx
      exact ⟨hx.1.1,fun g hg => hx.1.2 g (List.mem_cons_of_mem f hg)⟩

/-- A load of filas, with what it makes of each of them. -/
private theorem load {α : Type} (q : Db → α) {B : α → Obs ι Evento World → Prop}
    (hB : ∀ a,Prog.Stable R (B a))
    (h : ∀ x,r.livre x → r.livre (x.push i (fun _ => .carrega) id) →
      (∀ f ∈ x.state.db.filas.rows,r.carregada f (x.push i (fun _ => .carrega) id)) →
      B (q x.state.db) (x.push i (fun _ => .carrega) id)) :
    Prog.Triple i ok R G r.livre (Sisfila.carrega q) B := by
  apply Prog.Triple.step r.firme_livre.stable hB
  intro x hx _
  obtain ⟨hg,hl⟩ := r.firme_livre.quieta (fun _ => .carrega) id x ⟨fun _ => rfl,fun _ => rfl⟩ hx
  exact ⟨hg,h x hx hl (r.carrega x hx)⟩

theorem proximaFilaNaoVazia (c : Nat) :
    Prog.Triple i ok R G r.livre (Colegiado.proximaFilaNaoVazia c)
      (fun o x => r.livre x ∧ ∀ f ∈ o,r.pronta f x) := by
  have hq : Prog.Triple i ok R G r.livre (Sisfila.carrega (Colegiado.filasDe c))
      (fun fs x => r.livre x ∧ ∀ f ∈ fs,r.carregada f x) := by
    apply r.load
    · exact fun fs x y hx h => ⟨r.firme_livre.stable x y hx.1 h,
        fun f hf => (r.firme_carregada f).stable x y (hx.2 f hf) h⟩
    · intro x _ hl hc
      exact ⟨hl,fun f hf => hc f (List.mem_of_mem_filter ((mem_orderBy _ _ _).mp hf))⟩
  exact Prog.Triple.bind r.refl hq r.primeiraNaoVazia

theorem colegiadosEsvazia (mesa : Mesa) {s : Sessao} (hs : s.mesa=some m) :
    Prog.Triple i ok R G r.livre (ColegiadosController.esvazia mesa s) (fun _ => r.feita) := by
  unfold ColegiadosController.esvazia
  rw [hs]
  apply Prog.Triple.bind r.refl (r.firme_livre.every (every_consulta _))
  intro o
  cases o with
  | none => exact Prog.Triple.ret r.firme_livre.stable r.feita_of_livre
  | some v => exact Prog.Triple.bind r.refl r.associa_none (fun _ => r.notifica)

theorem colegiadosChama (f : Fila) (mesa : Mesa) {s : Sessao} (hs : s.mesa=some m) :
    Prog.Triple i ok R G (r.pronta f) (ColegiadosController.chama f mesa s)
      (fun _ => r.feita) := by
  apply Prog.Triple.bind r.refl ((r.firme_pronta f).every (every_consulta _))
  intro n
  split_ifs
  · exact (r.colegiadosEsvazia mesa hs).conseq (r.livre_of_pronta f) (fun _ _ h => h)
  · rw [hs]
    exact Prog.Triple.bind r.refl (r.chamaProximo f) (fun _ => r.notifica)

theorem colegiadosProximo (c : Nat) {s : Sessao} (hs : s.mesa=some m) :
    Prog.Triple i ok R G r.livre (ColegiadosController.proximo s c) (fun _ => r.feita) := by
  have hc : (ColegiadosController.setColegiado c).Every Quieto :=
    (every_consulta _).bind (fun _ => every_orRaise _ _)
  apply Prog.Triple.bind r.refl (r.firme_livre.every hc)
  intro c
  apply Prog.Triple.bind r.refl (r.firme_livre.every (every_authorize s))
  intro _
  apply Prog.Triple.bind r.refl (r.firme_livre.every (every_consulta _))
  intro mesa
  cases mesa with
  | none => exact Prog.Triple.ret r.firme_livre.stable r.feita_of_livre
  | some mesa =>
    apply Prog.Triple.bind r.refl (r.proximaFilaNaoVazia c.id)
    intro o
    have hat : Prog.Triple i ok R G (fun x => r.livre x ∧ ∀ f ∈ o,r.pronta f x)
        (ColegiadosController.atende o mesa s) (fun _ => r.feita) := by
      cases o with
      | none => exact (r.colegiadosEsvazia mesa hs).conseq (fun _ h => h.1) (fun _ _ h => h)
      | some f =>
        exact (r.colegiadosChama f mesa hs).conseq (fun _ h => h.2 f rfl) (fun _ _ h => h)
    exact Prog.Triple.bind r.refl hat
      (fun _ => Prog.Triple.ret r.firme_feita.stable (fun _ h => h))

/-- A call that names its fila also goes ahead when the pointer is past the end. -/
theorem filasProximo (hp : ∀ f x,r.livre x → r.carregada f x → r.pronta f x) (c : Nat)
    {s : Sessao} (hs : s.mesa=some m) :
    Prog.Triple i ok R G r.livre (FilasController.proximo s c) (fun _ => r.feita) := by
  have hset : Prog.Triple i ok R G r.livre (FilasController.setFila c) r.pronta := by
    have hq : Prog.Triple i ok R G r.livre (Sisfila.carrega (fun d => d.filas.find c))
        (fun o x => ∀ f ∈ o,r.pronta f x) := by
      apply r.load
      · exact fun o x y hx h f hf => (r.firme_pronta f).stable x y (hx f hf) h
      · intro x _ hl hc f hf
        exact hp f _ hl (hc f (Table.mem_of_find hf))
    apply Prog.Triple.bind r.refl hq
    intro o
    cases o with
    | none => exact Prog.Triple.raise
    | some f =>
      have hret : Prog.Triple i ok R G (r.pronta f) (.ret f : Req Fila) r.pronta :=
        Prog.Triple.ret (r.firme_pronta f).stable (fun _ h => h)
      exact hret.conseq (fun _ h => h f rfl) (fun _ _ h => h)
  apply Prog.Triple.bind r.refl hset
  intro f
  apply Prog.Triple.bind r.refl ((r.firme_pronta f).every (every_authorize s))
  intro _
  apply Prog.Triple.bind r.refl ((r.firme_pronta f).every (every_consulta _))
  intro n
  have hcall : Prog.Triple i ok R G (r.pronta f) (FilasController.chama f n s)
      (fun _ => r.feita) := by
    unfold FilasController.chama
    rw [hs]
    split_ifs
    · exact r.associa_none.conseq (r.livre_of_pronta f) (fun _ _ h => h)
    · exact r.chamaProximo f
  apply Prog.Triple.bind r.refl hcall
  intro _
  apply Prog.Triple.bind r.refl r.notifica
  intro _
  exact Prog.Triple.ret r.firme_feita.stable (fun _ h => h)

end Roteiro

/-- `Vaga.create`, from what holds of the loaded fila, once the greatest `posicao` is read, and at
the INSERT. Without the fila nothing is written. -/
theorem Vaga.triple_create {ι : Type} {i : ι} {ok : Obs ι Evento World → ι → Evento → Prop}
    {R G : Obs ι Evento World → Obs ι Evento World → Prop} (hr : ∀ x,R x x) {a : Aluno}
    {f : Option Nat} {A : Obs ι Evento World → Prop} {C : Option Fila → Obs ι Evento World → Prop}
    {F : Fila → Nat → Obs ι Evento World → Prop} {T : Fila → Nat → ℚ → Obs ι Evento World → Prop}
    {B : Option Fila × Option Int → Obs ι Evento World → Prop}
    (hload : Prog.Triple i ok R G A (consulta (fun d => d.filaDe f)) C)
    (hnone : Prog.Triple i ok R G (C none) (le (fun _ => .cria a.id none none) (fun _ => ()))
      (fun _ => B (none,none)))
    (hread : ∀ g,Prog.Triple i ok R G (C (some g)) (consulta (fun d => d.maiorPosicao (some g.id)))
      (F g))
    (hclock : ∀ g n,Prog.Triple i ok R G (F g n) timeNow (T g n))
    (hinsert : ∀ g n t,Prog.Triple i ok R G (T g n t)
      (escreve (fun d => .cria a.id (some g.id) (some d.vagas.next))
        (fun d => d.insereVaga a.id (some g.id) n t)) (fun _ => B (some g,some (n+1 : Nat))))
    (hB : ∀ o,Prog.Stable R (B o)) : Prog.Triple i ok R G A (Vaga.create a f) B := by
  apply Prog.Triple.bind hr hload
  intro o
  cases o with
  | none =>
    apply Prog.Triple.bind hr hnone
    intro _
    exact Prog.Triple.ret (hB _) (fun _ h => h)
  | some g =>
    apply Prog.Triple.bind hr (hread g)
    intro n
    apply Prog.Triple.bind hr (hclock g n)
    intro t
    apply Prog.Triple.bind hr (hinsert g n t)
    intro _
    exact Prog.Triple.ret (hB _) (fun _ h => h)

/-- A proof outline for an enrolment: what holds at the start, of the aluno found, of the grupo chosen,
once no vaga is found, and of the answer. -/
structure Inscricao {ι : Type} (i : ι) (ok : Obs ι Evento World → ι → Evento → Prop)
    (R G : Obs ι Evento World → Obs ι Evento World → Prop) where
  inicio : Obs ι Evento World → Prop
  achado : Aluno → Obs ι Evento World → Prop
  escolhida : Aluno → Grupo → Obs ι Evento World → Prop
  liberada : Aluno → Grupo → Obs ι Evento World → Prop
  respondida : Resposta → Obs ι Evento World → Prop
  refl : ∀ x,R x x
  consulta : ∀ x,G x (x.push i (fun _ => .consulta) id)
  inicio_consulta : ∀ x,inicio x → inicio (x.push i (fun _ => .consulta) id)
  achado_consulta : ∀ a x,achado a x → achado a (x.push i (fun _ => .consulta) id)
  stable_inicio : Prog.Stable R inicio
  stable_achado : ∀ a,Prog.Stable R (achado a)
  stable_escolhida : ∀ a g,Prog.Stable R (escolhida a g)
  stable_respondida : ∀ r,Prog.Stable R (respondida r)
  acha : ∀ x,inicio x → ∀ a ∈ x.core.alunos.rows,achado a x
  escolhe : ∀ a g x,achado a x → a.primeiroGrupo x.core.grupos x.core.alunosGrupos=some g →
    escolhida a g x
  procura : ∀ a g,Prog.Triple i ok R G (escolhida a g) a.proximaVaga
    (fun o x => o=none → liberada a g x)
  nega : ∀ r x,(∀ a c,r≠.inscrito a c) → respondida r x
  cria : ∀ a g,Prog.Triple i ok R G (liberada a g) (Vaga.create a g.filaId)
    (fun o => respondida (.inscrito a (Vaga.codigo o.1 o.2)))

namespace Inscricao

variable {ι : Type} {i : ι} {ok : Obs ι Evento World → ι → Evento → Prop}
  {R G : Obs ι Evento World → Obs ι Evento World → Prop}

variable (r : Inscricao i ok R G)

include r

/-- An answer that enrols nobody. -/
theorem responde (A : Obs ι Evento World → Prop) {x : Resposta} (hx : ∀ a c,x≠.inscrito a c) :
    Prog.Triple i ok R G A (.ret x : Req Resposta) r.respondida := fun _ _ y _ => r.nega x y hx

theorem jaNaFila (A : Obs ι Evento World → Prop) (v : Vaga) (f : Fila) :
    Prog.Triple i ok R G A (TelaController.jaNaFila v f) r.respondida := by
  unfold TelaController.jaNaFila
  split_ifs
  · exact r.responde _ nofun
  · cases v.posicao with
    | none => exact Prog.Triple.raise
    | some p =>
      cases f.tempoatendimento with
      | none => exact Prog.Triple.raise
      | some t =>
        simp only [orRaise,Prog.ret_bind]
        split
        · exact r.responde _ nofun
        · exact Prog.Triple.raise

theorem le {α : Type} {q : Db → α} {A : Obs ι Evento World → Prop}
    {B : α → Obs ι Evento World → Prop} (hA : Prog.Stable R A) (hB : ∀ a,Prog.Stable R (B a))
    (h : ∀ x,A x → B (q x.state.db) (x.push i (fun _ => .consulta) id)) :
    Prog.Triple i ok R G A (Sisfila.consulta q) B :=
  Prog.Triple.step hA hB (fun x hx _ => ⟨r.consulta x,h x hx⟩)

theorem inscreve (a : Aluno) (g : Grupo) :
    Prog.Triple i ok R G (r.escolhida a g) (TelaController.inscreve a g) r.respondida := by
  apply Prog.Triple.bind r.refl (r.procura a g)
  intro o
  cases o with
  | some vf => exact r.jaNaFila _ vf.1 vf.2
  | none =>
    have hc : Prog.Triple i ok R G (r.liberada a g) (Vaga.create a g.filaId >>= fun o =>
        pure (Resposta.inscrito a (Vaga.codigo o.1 o.2))) r.respondida := by
      apply Prog.Triple.bind r.refl (r.cria a g)
      intro o
      exact Prog.Triple.ret (B := r.respondida) (r.stable_respondida _) (fun _ h => h)
    exact hc.conseq (fun _ h => h rfl) (fun _ _ h => h)

/-- From the aluno on. -/
theorem inscreveAluno (a : Aluno) :
    Prog.Triple i ok R G (r.achado a)
      (a.estaEmAlgumGrupo >>= fun emGrupo =>
        if emGrupo=false then
          pure (.json 405 "Número de matrícula não encontrado. (Cód. de Erro: 42)")
        else a.primeiroGrupoAtivoComFilaAtiva >>= fun g =>
          match g with
          | none =>
            pure (.json 405 "Matrícula não habilitada para este horário. (Cód. de Erro: 27)")
          | some g => TelaController.inscreve a g) r.respondida := by
  have hst := r.stable_achado a
  have he : Prog.Triple i ok R G (r.achado a) a.estaEmAlgumGrupo (fun _ => r.achado a) :=
    r.le hst (fun _ => hst) (r.achado_consulta a)
  have hg : Prog.Triple i ok R G (r.achado a) a.primeiroGrupoAtivoComFilaAtiva
      (fun o x => ∀ g ∈ o,r.escolhida a g x) := by
    apply r.le hst
    · exact fun o x y hx h g hg => r.stable_escolhida a g x y (hx g hg) h
    · exact fun x hx g hg => r.escolhe a g _ (r.achado_consulta a x hx) hg
  apply Prog.Triple.bind r.refl he
  intro emGrupo
  split_ifs
  · exact r.responde _ nofun
  · apply Prog.Triple.bind r.refl hg
    intro o
    cases o with
    | none => exact r.responde _ nofun
    | some g => exact (r.inscreve a g).conseq (fun _ h => h g rfl) (fun _ _ h => h)

theorem inscreveMatricula (m : Option String) :
    Prog.Triple i ok R G r.inicio (TelaController.inscreveMatricula m) r.respondida := by
  have hq : Prog.Triple i ok R G r.inicio
      (Sisfila.consulta (fun d => d.alunos.rows.find? (fun a => a.matricula==m)))
      (fun o x => ∀ a ∈ o,r.achado a x) := by
    apply r.le r.stable_inicio
    · exact fun o x y hx h a ha => r.stable_achado a x y (hx a ha) h
    · exact fun x hx a ha => r.acha _ (r.inicio_consulta x hx) a (List.mem_of_find?_eq_some ha)
  apply Prog.Triple.bind r.refl hq
  intro o
  cases o with
  | none => exact r.responde _ nofun
  | some a =>
    refine Prog.Triple.conseq (A := r.achado a) ?_ (fun _ h => h a rfl) (fun _ _ h => h)
    show Prog.Triple i ok R G _ (if a.ativo≠some true then _ else _) _
    split_ifs
    · exact r.responde _ nofun
    · exact r.inscreveAluno a

theorem inscrever (s : Sessao) (m : Option String) :
    Prog.Triple i ok R G r.inicio (TelaController.inscrever s m) r.respondida := by
  have hst := r.stable_inicio
  apply Prog.Triple.bind r.refl (r.le hst (fun _ => hst) r.inicio_consulta)
  intro rodada
  cases rodada with
  | none => exact Prog.Triple.raise
  | some d =>
    refine Prog.Triple.conseq (A := r.inicio) ?_ (fun _ h => h) (fun _ _ h => h)
    show Prog.Triple i ok R G _ (if d.inscricaoGuest=some true then _ else _) _
    split_ifs
    · exact r.inscreveMatricula m
    · exact r.responde _ nofun
    · exact r.inscreveMatricula m
    · exact r.responde _ nofun

end Inscricao

end Sisfila
