import DesignSystem.Text.Cut
/-!
# Skeletons of web components
-/

namespace DesignSystem.Skeleton.WebComponent

/-- The skeleton of a custom element. -/
def elementText : String :=
  Text.lines [
    "// <\x7b\x7b tag \x7d\x7d> \x7b\x7b description \x7d\x7d.",
    "// Generated by dsforge. Styles read the --ds-* variables of the active theme.",
    "",
    "const STYLES = `",
    ":host \x7b",
    "  display: \x7b\x7b display \x7d\x7d;",
    "\x7d",
    "",
    ":host([hidden]) \x7b",
    "  display: none;",
    "\x7d",
    "",
    "\x7b\x7b styles | trim \x7d\x7d",
    "`;",
    "\x7b% if has_text %\x7d",
    "",
    "function escapeHtml(value: string): string \x7b",
    "  return value",
    "    .replace(/&/g, '&amp;')",
    "    .replace(/</g, '&lt;')",
    "    .replace(/>/g, '&gt;')",
    "    .replace(/\"/g, '&quot;')",
    "    .replace(/'/g, '&#39;');",
    "\x7d",
    "\x7b% endif %\x7d",
    "",
    "export class \x7b\x7b class_name \x7d\x7d extends HTMLElement \x7b",
    "  static get observedAttributes(): string[] \x7b",
    "    return [\x7b% for prop in props %\x7d'\x7b\x7b prop.attr \x7d\x7d'\x7b% if not loop.last %\x7d, \x7b% endif %\x7d\x7b% endfor %\x7d];",
    "  \x7d",
    "",
    "  private readonly root: ShadowRoot;",
    "",
    "  constructor() \x7b",
    "    super();",
    "    this.root = this.attachShadow(\x7b mode: 'open' \x7d);",
    "\x7b% for event in events %\x7d",
    "",
    "    this.root.addEventListener('\x7b\x7b event.dom_event \x7d\x7d', (event: Event) => \x7b",
    "      const target = event",
    "        .composedPath()",
    "        .find((node): node is HTMLElement => node instanceof HTMLElement && node.matches('\x7b\x7b event.selector \x7d\x7d'));",
    "      if (!target) \x7b",
    "        return;",
    "      \x7d",
    "\x7b% if event.effect %\x7d",
    "      \x7b\x7b event.effect \x7d\x7d",
    "\x7b% endif %\x7d",
    "      this.dispatchEvent(",
    "        new CustomEvent<\x7b\x7b event.detail_type \x7d\x7d>('\x7b\x7b event.custom_event \x7d\x7d', \x7b",
    "          detail: \x7b\x7b event.detail \x7d\x7d,",
    "          bubbles: true,",
    "          composed: true,",
    "        \x7d),",
    "      );",
    "    \x7d);",
    "\x7b% endfor %\x7d",
    "  \x7d",
    "",
    "  connectedCallback(): void \x7b",
    "    this.render();",
    "  \x7d",
    "",
    "  attributeChangedCallback(): void \x7b",
    "    if (this.isConnected) \x7b",
    "      this.render();",
    "    \x7d",
    "  \x7d",
    "\x7b% for prop in props %\x7d",
    "",
    "\x7b% if prop.kind == \"flag\" %\x7d",
    "  get \x7b\x7b prop.name \x7d\x7d(): boolean \x7b",
    "    return this.hasAttribute('\x7b\x7b prop.attr \x7d\x7d');",
    "  \x7d",
    "",
    "  set \x7b\x7b prop.name \x7d\x7d(value: boolean) \x7b",
    "    this.toggleAttribute('\x7b\x7b prop.attr \x7d\x7d', value);",
    "  \x7d",
    "\x7b% elif prop.kind == \"number\" %\x7d",
    "  get \x7b\x7b prop.name \x7d\x7d(): number \x7b",
    "    const raw = this.getAttribute('\x7b\x7b prop.attr \x7d\x7d');",
    "    const parsed = raw === null ? NaN : Number(raw);",
    "    return Number.isFinite(parsed) ? parsed : \x7b\x7b prop.default \x7d\x7d;",
    "  \x7d",
    "",
    "  set \x7b\x7b prop.name \x7d\x7d(value: number) \x7b",
    "    this.setAttribute('\x7b\x7b prop.attr \x7d\x7d', String(value));",
    "  \x7d",
    "\x7b% elif prop.kind == \"list\" %\x7d",
    "  get \x7b\x7b prop.name \x7d\x7d(): \x7b\x7b prop.ts_type \x7d\x7d \x7b",
    "    const raw = this.getAttribute('\x7b\x7b prop.attr \x7d\x7d');",
    "    if (!raw) \x7b",
    "      return [];",
    "    \x7d",
    "    try \x7b",
    "      const parsed: unknown = JSON.parse(raw);",
    "      return Array.isArray(parsed) ? (parsed as \x7b\x7b prop.ts_type \x7d\x7d) : [];",
    "    \x7d catch \x7b",
    "      return [];",
    "    \x7d",
    "  \x7d",
    "",
    "  set \x7b\x7b prop.name \x7d\x7d(value: \x7b\x7b prop.ts_type \x7d\x7d) \x7b",
    "    this.setAttribute('\x7b\x7b prop.attr \x7d\x7d', JSON.stringify(value));",
    "  \x7d",
    "\x7b% elif prop.kind == \"choice\" %\x7d",
    "  get \x7b\x7b prop.name \x7d\x7d(): \x7b\x7b prop.ts_type \x7d\x7d \x7b",
    "    const raw = this.getAttribute('\x7b\x7b prop.attr \x7d\x7d');",
    "    const options: ReadonlyArray<string> = [\x7b% for option in prop.options %\x7d'\x7b\x7b option \x7d\x7d'\x7b% if not loop.last %\x7d, \x7b% endif %\x7d\x7b% endfor %\x7d];",
    "    return (raw !== null && options.includes(raw) ? raw : \x7b\x7b prop.default \x7d\x7d) as \x7b\x7b prop.ts_type \x7d\x7d;",
    "  \x7d",
    "",
    "  set \x7b\x7b prop.name \x7d\x7d(value: \x7b\x7b prop.ts_type \x7d\x7d) \x7b",
    "    this.setAttribute('\x7b\x7b prop.attr \x7d\x7d', value);",
    "  \x7d",
    "\x7b% else %\x7d",
    "  get \x7b\x7b prop.name \x7d\x7d(): string \x7b",
    "    return this.getAttribute('\x7b\x7b prop.attr \x7d\x7d') ?? '';",
    "  \x7d",
    "",
    "  set \x7b\x7b prop.name \x7d\x7d(value: string) \x7b",
    "    this.setAttribute('\x7b\x7b prop.attr \x7d\x7d', value);",
    "  \x7d",
    "\x7b% endif %\x7d",
    "\x7b% endfor %\x7d",
    "\x7b% if members_wc %\x7d",
    "",
    "  \x7b\x7b members_wc | trim | indent(2) \x7d\x7d",
    "\x7b% endif %\x7d",
    "",
    "  private render(): void \x7b",
    "    this.root.innerHTML = `",
    "      <style>$\x7bSTYLES\x7d</style>",
    "      \x7b\x7b element | trim | indent(6) \x7d\x7d",
    "    `;",
    "  \x7d",
    "\x7d",
    "",
    "declare global \x7b",
    "  interface HTMLElementTagNameMap \x7b",
    "    '\x7b\x7b tag \x7d\x7d': \x7b\x7b class_name \x7d\x7d;",
    "  \x7d",
    "\x7d",
    "",
    "if (!customElements.get('\x7b\x7b tag \x7d\x7d')) \x7b",
    "  customElements.define('\x7b\x7b tag \x7d\x7d', \x7b\x7b class_name \x7d\x7d);",
    "\x7d"]

/-- The skeleton of a React wrapper around a custom element. -/
def reactWrapperText : String :=
  Text.lines [
    "// React binding for <\x7b\x7b tag \x7d\x7d>. Generated by dsforge.",
    "",
    "import \x7b createElement, useEffect, useRef \x7d from 'react';",
    "import type \x7b ReactElement\x7b% if slot %\x7d, ReactNode\x7b% endif %\x7d \x7d from 'react';",
    "import \x7b \x7b\x7b class_name \x7d\x7d \x7d from './\x7b\x7b tag \x7d\x7d';",
    "",
    "export interface \x7b\x7b class_name \x7d\x7dProps \x7b",
    "\x7b% for prop in props %\x7d",
    "  \x7b\x7b prop.name \x7d\x7d?: \x7b\x7b prop.ts_type \x7d\x7d;",
    "\x7b% endfor %\x7d",
    "\x7b% for event in events %\x7d",
    "  \x7b\x7b event.handler \x7d\x7d?: (detail: \x7b\x7b event.detail_type \x7d\x7d) => void;",
    "\x7b% endfor %\x7d",
    "\x7b% if slot %\x7d",
    "  children?: ReactNode;",
    "\x7b% endif %\x7d",
    "  className?: string;",
    "\x7d",
    "",
    "/**",
    " * Renders `<\x7b\x7b tag \x7d\x7d>`, assigning props as element properties and forwarding",
    " * `ds-*` events to the matching callbacks.",
    " */",
    "export function \x7b\x7b class_name \x7d\x7dReact(props: \x7b\x7b class_name \x7d\x7dProps): ReactElement \x7b",
    "  const \x7b \x7b% for prop in props %\x7d\x7b\x7b prop.name \x7d\x7d, \x7b% endfor %\x7d\x7b% for event in events %\x7d\x7b\x7b event.handler \x7d\x7d, \x7b% endfor %\x7d\x7b% if slot %\x7dchildren, \x7b% endif %\x7dclassName \x7d = props;",
    "  const ref = useRef<\x7b\x7b class_name \x7d\x7d>(null);",
    "\x7b% if props %\x7d",
    "",
    "  useEffect(() => \x7b",
    "    const element = ref.current;",
    "    if (!element) \x7b",
    "      return;",
    "    \x7d",
    "\x7b% for prop in props %\x7d",
    "    if (\x7b\x7b prop.name \x7d\x7d !== undefined) \x7b",
    "      element.\x7b\x7b prop.name \x7d\x7d = \x7b\x7b prop.name \x7d\x7d;",
    "    \x7d",
    "\x7b% endfor %\x7d",
    "  \x7d, [\x7b% for prop in props %\x7d\x7b\x7b prop.name \x7d\x7d\x7b% if not loop.last %\x7d, \x7b% endif %\x7d\x7b% endfor %\x7d]);",
    "\x7b% endif %\x7d",
    "\x7b% for event in events %\x7d",
    "",
    "  useEffect(() => \x7b",
    "    const element = ref.current;",
    "    if (!element || !\x7b\x7b event.handler \x7d\x7d) \x7b",
    "      return undefined;",
    "    \x7d",
    "    const listener = (event: Event) => \x7b\x7b event.handler \x7d\x7d((event as CustomEvent<\x7b\x7b event.detail_type \x7d\x7d>).detail);",
    "    element.addEventListener('\x7b\x7b event.custom_event \x7d\x7d', listener);",
    "    return () => element.removeEventListener('\x7b\x7b event.custom_event \x7d\x7d', listener);",
    "  \x7d, [\x7b\x7b event.handler \x7d\x7d]);",
    "\x7b% endfor %\x7d",
    "",
    "  return createElement('\x7b\x7b tag \x7d\x7d', \x7b ref, className \x7d\x7b% if slot %\x7d, children\x7b% endif %\x7d);",
    "\x7d"]

/-- The skeleton of an Angular directive for a custom element. -/
def angularWrapperText : String :=
  Text.lines [
    "// Angular binding for <\x7b\x7b tag \x7d\x7d>. Generated by dsforge.",
    "//",
    "// Host templates using the element must declare CUSTOM_ELEMENTS_SCHEMA.",
    "",
    "import \x7b Directive, ElementRef\x7b% if events %\x7d, EventEmitter\x7b% endif %\x7d\x7b% if props %\x7d, Input, OnChanges\x7b% endif %\x7d\x7b% if events %\x7d, OnDestroy, OnInit, Output\x7b% endif %\x7d \x7d from '@angular/core';",
    "import \x7b \x7b\x7b class_name \x7d\x7d \x7d from './\x7b\x7b tag \x7d\x7d';",
    "",
    "@Directive(\x7b",
    "  selector: '\x7b\x7b tag \x7d\x7d',",
    "  standalone: true,",
    "\x7d)",
    "export class \x7b\x7b class_name \x7d\x7dDirective\x7b% if props or events %\x7d implements \x7b% for iface in angular_lifecycle %\x7d\x7b\x7b iface \x7d\x7d\x7b% if not loop.last %\x7d, \x7b% endif %\x7d\x7b% endfor %\x7d\x7b% endif %\x7d \x7b",
    "\x7b% for prop in props %\x7d",
    "  @Input() \x7b\x7b prop.name \x7d\x7d?: \x7b\x7b prop.ts_type \x7d\x7d;",
    "\x7b% endfor %\x7d",
    "\x7b% for event in events %\x7d",
    "  @Output() readonly \x7b\x7b event.name \x7d\x7d = new EventEmitter<\x7b\x7b event.detail_type \x7d\x7d>();",
    "\x7b% endfor %\x7d",
    "\x7b% if events %\x7d",
    "",
    "  private readonly listeners: Array<[string, EventListener]> = [];",
    "\x7b% endif %\x7d",
    "",
    "  constructor(private readonly host: ElementRef<\x7b\x7b class_name \x7d\x7d>) \x7b\x7d",
    "\x7b% if props %\x7d",
    "",
    "  ngOnChanges(): void \x7b",
    "    const element = this.host.nativeElement;",
    "\x7b% for prop in props %\x7d",
    "    if (this.\x7b\x7b prop.name \x7d\x7d !== undefined) \x7b",
    "      element.\x7b\x7b prop.name \x7d\x7d = this.\x7b\x7b prop.name \x7d\x7d;",
    "    \x7d",
    "\x7b% endfor %\x7d",
    "  \x7d",
    "\x7b% endif %\x7d",
    "\x7b% if events %\x7d",
    "",
    "  ngOnInit(): void \x7b",
    "\x7b% for event in events %\x7d",
    "    this.listen('\x7b\x7b event.custom_event \x7d\x7d', (event) =>",
    "      this.\x7b\x7b event.name \x7d\x7d.emit((event as CustomEvent<\x7b\x7b event.detail_type \x7d\x7d>).detail),",
    "    );",
    "\x7b% endfor %\x7d",
    "  \x7d",
    "",
    "  ngOnDestroy(): void \x7b",
    "    const element = this.host.nativeElement;",
    "    for (const [type, listener] of this.listeners) \x7b",
    "      element.removeEventListener(type, listener);",
    "    \x7d",
    "    this.listeners.length = 0;",
    "  \x7d",
    "",
    "  private listen(type: string, listener: EventListener): void \x7b",
    "    this.host.nativeElement.addEventListener(type, listener);",
    "    this.listeners.push([type, listener]);",
    "  \x7d",
    "\x7b% endif %\x7d",
    "\x7d"]

end DesignSystem.Skeleton.WebComponent
